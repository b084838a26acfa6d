import ImportRedirect.Script.Token

/-!
Two texts that agree up to a border and begin with the same token there. What a reader finds before
the border is the same in both, as long as it does not go on beyond it.
-/

namespace ImportRedirect.Script

/-- The tokens at which two texts can part. -/
def partingTokens : List (List Char) := ["\x7d", "import", "const", "let", "var"].map String.toList

/-- What comes after a word at which two texts can part: the word is complete, and no arrow follows. -/
structure Completes (rest : List Char) : Prop where
  ends : namePartLength? rest = none
  noArrow : Lexeme.first (rest.drop (triviaLength rest)) ≠ .mark "=>"

/-- Two continuations of one text that a reader who stops before them cannot tell apart: both are at
an end, or both begin with the same token. -/
inductive Meets : List Char → List Char → Prop where
  | finish : Meets [] []
  | token {head rest other : List Char} (known : head ∈ partingTokens)
      (completes : head ≠ ['\x7d'] → Completes rest ∧ Completes other) :
      Meets (head ++ rest) (head ++ other)

def partingLetters : List Char := ['\x7d', 'i', 'c', 'l', 'v']

theorem forall_partingLetters {p : Char → Prop} :
    (∀ c ∈ partingLetters, p c) ↔ p '\x7d' ∧ p 'i' ∧ p 'c' ∧ p 'l' ∧ p 'v' := by
  simp [partingLetters]

variable {old new : List Char}

namespace Meets

/-- Both texts are at an end, or they have their first character in common. -/
theorem nil_or_cons (meets : Meets old new) :
    (old = [] ∧ new = []) ∨
      ∃ c ∈ partingLetters, ∃ rest other, old = c :: rest ∧ new = c :: other := by
  cases meets with
  | finish => exact .inl ⟨rfl, rfl⟩
  | @token head rest other known =>
    have first : ∀ head ∈ partingTokens, ∃ c ∈ partingLetters, ∃ tail, head = c :: tail := by
      simp [partingTokens, partingLetters]
    obtain ⟨c, among, tail, rfl⟩ := first head known
    exact .inr ⟨c, among, tail ++ rest, tail ++ other, rfl, rfl⟩

theorem head?_append (meets : Meets old new) (front : List Char) :
    (front ++ old).head? = (front ++ new).head? := by
  cases front with
  | cons c front => rfl
  | nil =>
    rcases meets.nil_or_cons with ⟨rfl, rfl⟩ | ⟨c, _, rest, other, rfl, rfl⟩ <;> rfl

/-- A character that no token of a border begins with is ahead only if it stands before the border.
-/
theorem cons_of_append (meets : Meets old new) {front text after : List Char} {c : Char}
    (text_eq : text = old ∨ text = new) (foreign : c ∉ partingLetters)
    (begins : front ++ text = c :: after) : ∃ rest, front = c :: rest := by
  cases front with
  | cons first front =>
    obtain ⟨rfl, _⟩ := List.cons.inj begins
    exact ⟨front, rfl⟩
  | nil =>
    rcases meets.nil_or_cons with ⟨rfl, rfl⟩ | ⟨letter, among, rest, other, rfl, rfl⟩
    · simp_all
    · have same : letter = c := by
        rcases text_eq with rfl | rfl <;> exact (List.cons.inj begins).1
      exact absurd (same ▸ among) foreign

/-- A pair of characters that means something does not lie across the border. -/
theorem apart (meets : Meets old new) {c first second : Char} {front text : List Char}
    (text_eq : text = old ∨ text = new) (foreign : second ∉ partingLetters)
    (none : ∀ after, c = first → front = second :: after → False) :
    ∀ after, c = first → front ++ text = second :: after → False := by
  intro after begins pair
  obtain ⟨tail, found⟩ := meets.cons_of_append text_eq foreign pair
  exact none tail begins found

end Meets

section Comments

theorem lt_blockCommentTail? {passed length : Nat} {text : List Char}
    (closed : blockCommentTail? passed text = some length) : passed < length := by
  fun_induction blockCommentTail? passed text with
  | case1 => cases closed
  | case2 =>
    obtain rfl := Option.some.inj closed
    omega
  | case3 passed first rest other inductionHypothesis =>
    have further := inductionHypothesis closed
    omega

/-- No block comment ends in the text. -/
def Unended (text : List Char) : Prop := ¬['*', '/'] <:+: text

theorem blockCommentTail?_eq_none_iff {passed : Nat} {text : List Char} :
    blockCommentTail? passed text = none ↔ Unended text := by
  fun_induction blockCommentTail? passed text with
  | case1 => simp [Unended]
  | case2 passed rest =>
    have ends : ['*', '/'] <:+: '*' :: '/' :: rest := ⟨[], rest, rfl⟩
    simp [Unended, ends]
  | case3 passed first rest noEnd inductionHypothesis =>
    have noPrefix : ¬['*', '/'] <+: first :: rest := by
      rintro ⟨tail, same⟩
      obtain ⟨rfl, rfl⟩ : '*' = first ∧ '/' :: tail = rest := by simpa using same
      exact noEnd tail rfl rfl
    rw [inductionHypothesis, Unended, Unended, List.infix_cons_iff]
    simp [noPrefix]

instance (text : List Char) : Decidable (Unended text) :=
  decidable_of_iff (blockCommentTail? 0 text = none) blockCommentTail?_eq_none_iff

/-- What ends a comment ends its line, too: it is no carriage return alone. -/
def endsLine : List Char → Bool
  | [] => true
  | c :: rest => if isLineEnd c then c != '\r' || rest.head? == some '\n' else endsLine rest

theorem endsLine_tail {c : Char} {rest : List Char} (goesOn : isLineEnd c = false)
    (ends : endsLine (c :: rest) = true) : endsLine rest = true := by
  rwa [endsLine, goesOn, if_neg Bool.false_ne_true] at ends

/-- Every line comment ends its line. -/
def endsLines : List Char → Bool
  | [] => true
  | c :: rest => (c != '/' || rest.head? != some '/' || endsLine rest.tail) && endsLines rest

/-- Every block comment is closed. -/
def closesComments : List Char → Bool
  | [] => true
  | c :: rest =>
    (c != '/' || rest.head? != some '*' || decide (¬Unended rest.tail)) && closesComments rest

/-- A block comment that goes on here and is not closed before the border is closed by the second text only
if it is by the first. -/
def BlockEnds (old new front : List Char) : Prop := Unended front → Unended old → Unended new

/-- Comments that begin in the front end alike whatever comes after it. -/
structure CommentsEnd (old new front : List Char) : Prop where
  lines : endsLines front = true
  blocks : closesComments front = true ∨ (Unended old → Unended new)

theorem BlockEnds.tail {front : List Char} {c : Char}
    (apart : ∀ rest, c = '*' → front = '/' :: rest → False) (ends : BlockEnds old new (c :: front)) :
    BlockEnds old new front := by
  intro unended
  refine ends ?_
  rw [← @blockCommentTail?_eq_none_iff 0, blockCommentTail?]
  · exact blockCommentTail?_eq_none_iff.mpr unended
  · exact apart

theorem endsLines_right {front rest : List Char} (ends : endsLines (front ++ rest) = true) :
    endsLines rest = true := by
  induction front with
  | nil => exact ends
  | cons c front inductionHypothesis => exact inductionHypothesis ((Bool.and_eq_true _ _).mp ends).2

theorem closesComments_right {front rest : List Char} (closes : closesComments (front ++ rest) = true) :
    closesComments rest = true := by
  induction front with
  | nil => exact closes
  | cons c front inductionHypothesis => exact inductionHypothesis ((Bool.and_eq_true _ _).mp closes).2

namespace CommentsEnd

variable {front passed : List Char} {c : Char}

theorem of_append (ends : CommentsEnd old new (passed ++ front)) : CommentsEnd old new front where
  lines := endsLines_right ends.lines
  blocks := ends.blocks.imp_left closesComments_right

theorem tail (ends : CommentsEnd old new (c :: front)) : CommentsEnd old new front :=
  @of_append _ _ front [c] ends

theorem line (ends : CommentsEnd old new ('/' :: '/' :: front)) : endsLine front = true := by
  simpa [endsLines] using ((Bool.and_eq_true _ _).mp ends.lines).1

theorem block (ends : CommentsEnd old new ('/' :: '*' :: front)) : BlockEnds old new front := by
  intro unended
  refine ends.blocks.resolve_left fun closed => ?_
  have here := ((Bool.and_eq_true _ _).mp closed).1
  simp [unended] at here

end CommentsEnd

theorem blockCommentTail?_append (meets : Meets old new) {passed length : Nat} {front : List Char}
    (closed : blockCommentTail? passed (front ++ old) = some length)
    (within : length ≤ passed + front.length) :
    blockCommentTail? passed (front ++ new) = some length := by
  fun_induction blockCommentTail? passed front with
  | case1 =>
    have further := lt_blockCommentTail? closed
    simp at within
    omega
  | case2 => exact closed
  | case3 passed first rest other inductionHypothesis =>
    rw [List.cons_append, blockCommentTail?] at closed ⊢
    · simp only [List.length_cons] at within
      exact inductionHypothesis closed (by omega)
    · exact meets.apart (.inr rfl) (by decide) other
    · exact meets.apart (.inl rfl) (by decide) other

/-- A comment that is not closed before the border and not after it is not closed by what comes in
its place. -/
theorem blockCommentTail?_append_none (meets : Meets old new) {passed : Nat} {front : List Char}
    (ends : BlockEnds old new front) (unclosed : blockCommentTail? passed (front ++ old) = none) :
    blockCommentTail? passed (front ++ new) = none := by
  fun_induction blockCommentTail? passed front with
  | case1 =>
    rw [List.nil_append, blockCommentTail?_eq_none_iff] at unclosed ⊢
    exact ends (by simp [Unended]) unclosed
  | case2 => exact unclosed
  | case3 passed first rest other inductionHypothesis =>
    rw [List.cons_append, blockCommentTail?] at unclosed ⊢
    · exact inductionHypothesis (BlockEnds.tail other ends) unclosed
    · exact meets.apart (.inr rfl) (by decide) other
    · exact meets.apart (.inl rfl) (by decide) other

namespace Trivia

/-- A block comment that is closed goes on as blanks after it; one that is not counts for nothing. -/
theorem lengthFrom_blockComment (since passed : Nat) (text : List Char) :
    (blockComment since).lengthFrom passed text =
      match blockCommentTail? passed text with
      | none => since
      | some length => blank.lengthFrom length (text.drop (length - passed)) := by
  fun_induction blockCommentTail? passed text with
  | case1 => rfl
  | case2 => simp [lengthFrom]
  | case3 passed first rest other inductionHypothesis =>
    rw [lengthFrom, inductionHypothesis]
    · cases closed : blockCommentTail? (passed + 1) rest with
      | none => rfl
      | some length =>
        have further := lt_blockCommentTail? closed
        have counted : length - passed = (length - (passed + 1)) + 1 := by omega
        simp [counted]
    · exact other

/-- How many characters are sure to count from this state on. -/
def floor : Trivia → Nat → Nat
  | .blockComment since, passed => min since passed
  | _, passed => passed

theorem floor_le_lengthFrom (state : Trivia) (passed : Nat) (text : List Char) :
    state.floor passed ≤ state.lengthFrom passed text := by
  fun_induction lengthFrom state passed text
  case case7 passed c rest inductionHypothesis =>
    have next : (if isLineEnd c then blank else lineComment).floor (passed + 1) = passed + 1 := by
      split <;> rfl
    rw [next] at inductionHypothesis
    exact Nat.le_of_succ_le inductionHypothesis
  all_goals
    simp only [floor] at *
    try omega

/-- The comment that is being read ends alike whatever comes after the front. -/
def Ends (old new front : List Char) : Trivia → Prop
  | .blank => True
  | .lineComment => endsLine front = true
  | .blockComment _ => BlockEnds old new front

theorem ends_after_line {c : Char} {front : List Char} (ends : endsLine (c :: front) = true) :
    (if isLineEnd c then blank else lineComment).Ends old new front := by
  rw [endsLine] at ends
  split at ends
  · next stops => rw [if_pos stops]; exact trivial
  · next goesOn => rw [if_neg goesOn]; exact ends

/-- The step at a character that begins no comment before the border, whatever comes after it. -/
theorem lengthFrom_plain (meets : Meets old new) {c : Char} {rest text : List Char}
    (text_eq : text = old ∨ text = new) (noLine : ∀ after, c = '/' → rest = '/' :: after → False)
    (noBlock : ∀ after, c = '/' → rest = '*' :: after → False) (passed : Nat) :
    blank.lengthFrom passed (c :: rest ++ text) =
      if isSpace c then blank.lengthFrom (passed + 1) (rest ++ text) else passed := by
  rw [List.cons_append, lengthFrom]
  · exact meets.apart text_eq (by decide) noLine
  · exact meets.apart text_eq (by decide) noBlock

/-- The step at a character of a block comment that does not end it before the border. -/
theorem lengthFrom_unclosed (meets : Meets old new) {c : Char} {rest text : List Char}
    (text_eq : text = old ∨ text = new) (other : ∀ after, c = '*' → rest = '/' :: after → False)
    (since passed : Nat) : (blockComment since).lengthFrom passed (c :: rest ++ text) =
      (blockComment since).lengthFrom (passed + 1) (rest ++ text) := by
  rw [List.cons_append, lengthFrom]
  exact meets.apart text_eq (by decide) other

/-- Blanks and comments that end before the border are not changed by what comes after it. -/
theorem lengthFrom_append (meets : Meets old new) (state : Trivia) (passed : Nat)
    (front : List Char) (ends : CommentsEnd old new front) (inside : state.Ends old new front)
    (within : state.lengthFrom passed (front ++ old) ≤ passed + front.length) :
    state.lengthFrom passed (front ++ new) = state.lengthFrom passed (front ++ old) := by
  fun_induction lengthFrom state passed front with
  | case1 passed =>
    rcases meets.nil_or_cons with ⟨rfl, rfl⟩ | ⟨letter, among, rest, other, rfl, rfl⟩
    · rfl
    · have letters : ∀ c ∈ partingLetters, isSpace c = false ∧ c ≠ '/' :=
        forall_partingLetters.mpr (by decide)
      obtain ⟨noSpace, noSlash⟩ := letters letter among
      simp [lengthFrom, noSpace, noSlash]
  | case2 passed rest inductionHypothesis =>
    simp only [List.cons_append, lengthFrom, List.length_cons] at within ⊢
    exact inductionHypothesis ends.tail.tail ends.line (by omega)
  | case3 passed rest inductionHypothesis =>
    simp only [List.cons_append, lengthFrom, List.length_cons] at within ⊢
    exact inductionHypothesis ends.tail.tail ends.block (by omega)
  | case4 passed c rest noLine noBlock space inductionHypothesis =>
    have step := lengthFrom_plain meets (.inl rfl) noLine noBlock passed
    rw [if_pos space] at step
    rw [step, List.length_cons] at within
    rw [step, lengthFrom_plain meets (.inr rfl) noLine noBlock, if_pos space]
    exact inductionHypothesis ends.tail trivial (by omega)
  | case5 passed c rest noLine noBlock noSpace =>
    rw [lengthFrom_plain meets (.inl rfl) noLine noBlock, if_neg noSpace,
      lengthFrom_plain meets (.inr rfl) noLine noBlock, if_neg noSpace]
  | case6 passed =>
    rcases meets.nil_or_cons with ⟨rfl, rfl⟩ | ⟨letter, among, rest, other, rfl, rfl⟩
    · rfl
    · have more := floor_le_lengthFrom (if isLineEnd letter then blank else lineComment)
        (passed + 1) rest
      have next : (if isLineEnd letter then blank else lineComment).floor (passed + 1) =
          passed + 1 := by split <;> rfl
      simp only [List.nil_append, lengthFrom, List.length_nil] at within
      omega
  | case7 passed c rest inductionHypothesis =>
    simp only [List.cons_append, lengthFrom, List.length_cons] at within ⊢
    exact inductionHypothesis ends.tail (ends_after_line inside) (by omega)
  | case8 since passed =>
    rw [List.nil_append, lengthFrom_blockComment] at within ⊢
    rw [List.nil_append, lengthFrom_blockComment]
    cases closed : blockCommentTail? passed old with
    | none =>
      have unclosed := blockCommentTail?_append_none meets inside closed
      rw [List.nil_append] at unclosed
      rw [unclosed]
    | some length =>
      have further := lt_blockCommentTail? closed
      have more := floor_le_lengthFrom blank length (old.drop (length - passed))
      simp only [closed, floor, List.length_nil] at within more
      omega
  | case9 since passed rest inductionHypothesis =>
    simp only [List.cons_append, lengthFrom, List.length_cons] at within ⊢
    exact inductionHypothesis ends.tail.tail trivial (by omega)
  | case10 since passed c rest other inductionHypothesis =>
    rw [lengthFrom_unclosed meets (.inl rfl) other, List.length_cons] at within
    rw [lengthFrom_unclosed meets (.inl rfl) other, lengthFrom_unclosed meets (.inr rfl) other]
    exact inductionHypothesis ends.tail (BlockEnds.tail other inside) (by omega)

end Trivia

theorem triviaLength_append (meets : Meets old new) {front : List Char}
    (ends : CommentsEnd old new front) (within : triviaLength (front ++ old) ≤ front.length) :
    triviaLength (front ++ new) = triviaLength (front ++ old) :=
  Trivia.lengthFrom_append meets .blank 0 front ends trivial (by rwa [Nat.zero_add])

end Comments

section Names

theorem takeWhile_append_of_stops {p : Char → Bool} {word : List Char}
    (stops : ∃ c ∈ word, p c = false) (rest other : List Char) :
    (word ++ other).takeWhile p = (word ++ rest).takeWhile p ∧
      ((word ++ other).drop ((word ++ rest).takeWhile p).length).head? =
        ((word ++ rest).drop ((word ++ rest).takeWhile p).length).head? := by
  induction word with
  | nil => simp at stops
  | cons c word inductionHypothesis =>
    cases holds : p c with
    | false => simp [holds]
    | true =>
      have later : ∃ c ∈ word, p c = false := by simpa [holds] using stops
      simpa [holds] using inductionHypothesis later

/-- A token at a border has a character that is no digit, so an escape does not go on beyond it. -/
theorem codePointLength?_append (meets : Meets old new) (front : List Char) :
    codePointLength? (front ++ new) = codePointLength? (front ++ old) := by
  cases meets with
  | finish => rfl
  | @token head rest other known =>
    have stops : ∀ head ∈ partingTokens, ∃ c ∈ head, isHexDigit c = false := by
      have each : partingTokens.all (·.any (!isHexDigit ·)) = true := by decide
      simpa only [List.all_eq_true, List.any_eq_true, Bool.not_eq_true'] using each
    obtain ⟨letter, among, fails⟩ := stops head known
    simp only [partingTokens, List.map_cons, List.map_nil, List.mem_cons, List.not_mem_nil,
      or_false] at known
    cases front with
    | nil =>
      rcases known with rfl | rfl | rfl | rfl | rfl <;> simp [codePointLength?, isHexDigit]
    | cons c front =>
      by_cases brace : c = '\x7b'
      · subst brace
        have later : ∃ c ∈ front ++ head, isHexDigit c = false := ⟨letter, by simp [among], fails⟩
        obtain ⟨same, next⟩ := takeWhile_append_of_stops later rest other
        rw [List.append_assoc, List.append_assoc] at same next
        simp only [List.cons_append, codePointLength?, bracedCodeLength?]
        rw [same, next]
      · have plain : ∀ tail after, c :: tail = '\x7b' :: after → False :=
          fun _ _ same => brace (List.cons.inj same).1
        rw [List.cons_append, List.cons_append, codePointLength?, codePointLength?]
        -- Four digits end before the border, or they take in some of the token there.
        · match front with
          | _ :: _ :: _ :: _ => simp
          | [] | [_] | [_, _] =>
            rcases known with rfl | rfl | rfl | rfl | rfl <;> simp [isHexDigit]
        · exact plain _
        · exact plain _

theorem namePartLength?_append (meets : Meets old new) (front : List Char) :
    namePartLength? (front ++ new) = namePartLength? (front ++ old) := by
  have escaped : ∀ c tail, c ≠ '\\' → namePartLength? (c :: tail) =
      if isNamePart c then some 1 else none := by
    intro c tail plain
    rw [namePartLength?]
    exact fun _ same => absurd same plain
  have single : ∀ {c d : Char} {tail : List Char}, d ≠ 'u' → namePartLength? (c :: d :: tail) =
      if isNamePart c then some 1 else none := by
    intro c d tail plain
    rw [namePartLength?]
    exact fun _ _ same => absurd (List.cons.inj same).1 plain
  match front with
  | [] =>
    rcases meets.nil_or_cons with ⟨rfl, rfl⟩ | ⟨letter, among, rest, other, rfl, rfl⟩
    · rfl
    · have letters : ∀ c ∈ partingLetters, c ≠ '\\' :=
        forall_partingLetters.mpr (by decide)
      rw [List.nil_append, List.nil_append, escaped _ _ (letters letter among),
        escaped _ _ (letters letter among)]
  | [c] =>
    rcases meets.nil_or_cons with ⟨rfl, rfl⟩ | ⟨letter, among, rest, other, rfl, rfl⟩
    · rfl
    · have letters : ∀ c ∈ partingLetters, c ≠ 'u' :=
        forall_partingLetters.mpr (by decide)
      exact (single (letters letter among)).trans (single (letters letter among)).symm
  | c :: d :: front =>
    by_cases escape : c = '\\' ∧ d = 'u'
    · obtain ⟨rfl, rfl⟩ := escape
      simp only [List.cons_append, namePartLength?, codePointLength?_append meets]
    · by_cases slash : c = '\\'
      · have plain : d ≠ 'u' := fun same => escape ⟨slash, same⟩
        exact (single plain).trans (single plain).symm
      · exact (escaped _ _ slash).trans (escaped _ _ slash).symm

theorem namePartsLength_append (meets : Meets old new) (skip : Nat) (front : List Char)
    (within : namePartsLength skip (front ++ old) ≤ front.length) :
    namePartsLength skip (front ++ new) = namePartsLength skip (front ++ old) := by
  induction front generalizing skip with
  | nil =>
    rcases meets.nil_or_cons with ⟨rfl, rfl⟩ | ⟨letter, _, rest, other, oldEq, newEq⟩
    · rfl
    have next := namePartLength?_append meets []
    rw [List.nil_append, List.nil_append] at next
    rw [oldEq, newEq] at next ⊢
    rw [oldEq] at within
    cases skip with
    | succ skip => simp [namePartsLength] at within
    | zero =>
      simp only [List.nil_append, namePartsLength] at within ⊢
      rw [next]
      split
      · next found => simp [found] at within
      · rfl
  | cons c front inductionHypothesis =>
    have next := namePartLength?_append meets (c :: front)
    cases skip with
    | succ skip =>
      simp only [List.cons_append, namePartsLength, List.length_cons] at within ⊢
      rw [inductionHypothesis skip (by omega)]
    | zero =>
      simp only [List.cons_append] at next
      simp only [List.cons_append, namePartsLength, next, List.length_cons] at within ⊢
      split
      · next length found =>
        simp only [found] at within
        rw [inductionHypothesis (length - 1) (by omega)]
      · rfl

theorem nameLength_append (meets : Meets old new) {front : List Char}
    (within : nameLength (front ++ old) ≤ front.length) :
    nameLength (front ++ new) = nameLength (front ++ old) := by
  unfold nameLength at within ⊢
  rw [meets.head?_append front] at within ⊢
  split
  · rfl
  · next digit =>
    rw [if_neg digit] at within
    exact namePartsLength_append meets 0 front within

end Names

end ImportRedirect.Script
