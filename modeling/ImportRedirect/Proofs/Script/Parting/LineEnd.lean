import ImportRedirect.Proofs.Script.Parting.Lexeme

/-!
Line ends before a border. Whether a statement may end somewhere depends on the blanks and comments
there and on a few characters after them, so it is the same whatever comes after the border. No line
comment before it must end with a carriage return alone: that ends the comment, but no line.
-/

namespace ImportRedirect.Script

variable {old new : List Char}

/-- Every carriage return is followed by a line feed. -/
def pairsReturns : List Char → Bool
  | [] => true
  | c :: rest => (c != '\r' || rest.head? == some '\n') && pairsReturns rest

/-- A line comment ends its line where every carriage return is one half of a line end. -/
theorem endsLine_of_pairsReturns {text : List Char} (pairs : pairsReturns text = true) :
    endsLine text = true := by
  induction text with
  | nil => rfl
  | cons c rest inductionHypothesis =>
    obtain ⟨here, later⟩ := (Bool.and_eq_true _ _).mp pairs
    rw [endsLine]
    split
    · exact here
    · exact inductionHypothesis later

theorem endsLines_of_pairsReturns {text : List Char} (pairs : pairsReturns text = true) :
    endsLines text = true := by
  induction text with
  | nil => rfl
  | cons c rest inductionHypothesis =>
    obtain ⟨_, later⟩ := (Bool.and_eq_true _ _).mp pairs
    have tail : pairsReturns rest.tail = true := by
      cases rest with
      | nil => rfl
      | cons _ rest => exact ((Bool.and_eq_true _ _).mp later).2
    rw [endsLines, inductionHypothesis later, endsLine_of_pairsReturns tail, Bool.or_true, Bool.and_true]

theorem isSpace_of_isLineEnd {c : Char} (ends : isLineEnd c = true) : isSpace c = true := by
  simp only [isLineEnd, Bool.or_eq_true, beq_iff_eq] at ends
  rcases ends with ((rfl | rfl) | rfl) | rfl <;> decide

theorem isSpace_of_isLineBlank {c : Char} (blank : isLineBlank c = true) : isSpace c = true := by
  simp only [isLineBlank, lineBlankRanges, Text.Ranges.holds] at blank
  simp only [isSpace, spaceRanges, Text.Ranges.holds]
  simp at blank ⊢
  omega

/-- A carriage return ends a comment too, but no line. -/
theorem isLineEnd_iff {c : Char} : isLineEnd c = true ↔ isLineBreak c = true ∨ c = '\r' := by
  simp only [isLineBreak, isLineEnd, Bool.or_eq_true, beq_iff_eq]
  constructor
  · rintro (((rfl | rfl) | rfl) | rfl) <;> simp
  · rintro (((rfl | rfl) | rfl) | rfl) <;> simp

/-- A line comment goes on after a carriage return, and the line feed after that ends it. -/
theorem endsLine_of_noBreak {c : Char} {rest : List Char} (noBreak : isLineBreak c = false)
    (ends : endsLine (c :: rest) = true) : endsLine rest = true := by
  cases stops : isLineEnd c with
  | false => exact endsLine_tail stops ends
  | true =>
    obtain rfl := (isLineEnd_iff.mp stops).resolve_left (by simp [noBreak])
    have next : rest.head? = some '\n' := by simpa [endsLine, stops] using ends
    obtain ⟨tail, rfl⟩ := List.head?_eq_some_iff.mp next
    rfl

section Comments

namespace Trivia

def shift (base : Nat) : Trivia → Trivia
  | .blockComment since => .blockComment (base + since)
  | state => state

/-- What was passed before is only counted. -/
theorem lengthFrom_shift (base : Nat) (state : Trivia) (passed : Nat) (text : List Char) :
    (state.shift base).lengthFrom (base + passed) text = base + state.lengthFrom passed text := by
  fun_induction lengthFrom state passed text with
  | case1 => rfl
  | case2 passed rest inductionHypothesis => exact inductionHypothesis
  | case3 passed rest inductionHypothesis => exact inductionHypothesis
  | case4 passed c rest noLine noBlock space inductionHypothesis =>
    rw [shift, lengthFrom, if_pos space]
    · exact inductionHypothesis
    · exact noLine
    · exact noBlock
    · simp
  | case5 passed c rest noLine noBlock noSpace =>
    rw [shift, lengthFrom, if_neg noSpace]
    · exact noLine
    · exact noBlock
    · simp
  | case6 => rfl
  | case7 passed c rest inductionHypothesis =>
    rw [shift, lengthFrom]
    · split
      · next ends =>
        rw [if_pos ends] at inductionHypothesis
        exact inductionHypothesis
      · next goesOn =>
        rw [if_neg goesOn] at inductionHypothesis
        exact inductionHypothesis
    · simp
  | case8 => rfl
  | case9 since passed rest inductionHypothesis => exact inductionHypothesis
  | case10 since passed c rest other inductionHypothesis =>
    rw [shift, lengthFrom]
    · exact inductionHypothesis
    · exact other

theorem lengthFrom_blank (passed : Nat) (text : List Char) :
    blank.lengthFrom passed text = passed + triviaLength text :=
  lengthFrom_shift passed blank 0 text

theorem lengthFrom_blank_space {c : Char} {passed : Nat} {rest : List Char}
    (space : isSpace c = true) :
    blank.lengthFrom passed (c :: rest) = blank.lengthFrom (passed + 1) rest := by
  have slash : c ≠ '/' := by
    rintro rfl
    revert space
    decide
  rw [lengthFrom, if_pos space]
  · exact fun _ same => absurd same slash
  · exact fun _ same => absurd same slash

theorem lengthFrom_lineComment (passed : Nat) (text : List Char) :
    lineComment.lengthFrom passed text =
      blank.lengthFrom (passed + (text.takeWhile (!isLineEnd ·)).length)
        (text.drop (text.takeWhile (!isLineEnd ·)).length) := by
  induction text generalizing passed with
  | nil => rfl
  | cons c rest inductionHypothesis =>
    cases ends : isLineEnd c with
    | false =>
      simp only [lengthFrom, ends, List.takeWhile_cons, Bool.not_false, if_true, List.length_cons,
        List.drop_succ_cons]
      rw [if_neg (by simp), inductionHypothesis, Nat.add_right_comm, Nat.add_assoc]
    | true =>
      have space := isSpace_of_isLineEnd ends
      simp only [lengthFrom, ends, List.takeWhile_cons, Bool.not_true, if_true]
      exact (lengthFrom_blank_space space).symm

theorem lengthFrom_spaces (passed : Nat) (text : List Char) :
    blank.lengthFrom passed text = blank.lengthFrom (passed + (text.takeWhile isSpace).length)
      (text.drop (text.takeWhile isSpace).length) := by
  induction text generalizing passed with
  | nil => rfl
  | cons c rest inductionHypothesis =>
    cases space : isSpace c with
    | false => simp [space]
    | true =>
      rw [lengthFrom_blank_space space, inductionHypothesis]
      simp [space, Nat.add_right_comm, Nat.add_assoc]

end Trivia

/-- The comment ahead belongs to the blanks and comments ahead. -/
theorem triviaLength_of_comment {text : List Char} {length : Nat}
    (comment : commentLength? text = some length) :
    triviaLength text = length + triviaLength (text.drop length) := by
  unfold commentLength? at comment
  dsimp only at comment
  rw [triviaLength, Trivia.lengthFrom_spaces, Nat.zero_add]
  have dropped : ∀ more, text.drop ((text.takeWhile isSpace).length + more) =
      (text.drop (text.takeWhile isSpace).length).drop more := fun more => by rw [List.drop_drop]
  generalize (text.takeWhile isSpace).length = blanks at comment dropped ⊢
  split at comment
  · next rest begins =>
    obtain rfl := Option.some.inj comment
    rw [begins, Trivia.lengthFrom, Trivia.lengthFrom_lineComment, Trivia.lengthFrom_blank,
      Nat.add_assoc blanks, dropped, begins, Nat.add_comm 2]
    rfl
  · next rest begins =>
    have further := lt_blockCommentTail? comment
    obtain ⟨more, rfl⟩ : ∃ more, length = blanks + (more + 2) := ⟨length - blanks - 2, by omega⟩
    have counted : blanks + (more + 2) - (blanks + 2) = more := by omega
    rw [begins, Trivia.lengthFrom, Trivia.lengthFrom_blockComment, comment, dropped, begins]
    dsimp only
    rw [counted, Trivia.lengthFrom_blank]
    rfl
  · cases comment

theorem head?_drop_takeWhile {p : Char → Bool} (text : List Char) :
    (text.drop (text.takeWhile p).length).head?.any p = false := by
  induction text with
  | nil => rfl
  | cons c rest inductionHypothesis =>
    cases holds : p c with
    | true => simpa [holds] using inductionHypothesis
    | false => simp [holds]

/-- Without a comment ahead only spaces are. -/
theorem triviaLength_of_none {text : List Char} (none : commentLength? text = .none) :
    triviaLength text = (text.takeWhile isSpace).length := by
  have apart := head?_drop_takeWhile (p := isSpace) text
  unfold commentLength? at none
  dsimp only at none
  rw [triviaLength, Trivia.lengthFrom_spaces, Nat.zero_add]
  generalize (text.takeWhile isSpace).length = blanks at none apart ⊢
  split at none
  · cases none
  · next rest begins => rw [begins, Trivia.lengthFrom, Trivia.lengthFrom_blockComment, none]
  · next noLine noBlock =>
    cases ahead : text.drop blanks with
    | nil => rfl
    | cons c rest =>
      rw [ahead] at apart noLine noBlock
      rw [Trivia.lengthFrom, if_neg]
      · simpa using apart
      · rintro rest' rfl rfl
        exact noLine _ rfl
      · rintro rest' rfl rfl
        exact noBlock _ rfl

theorem commentLength?_append (meets : Meets old new) {front : List Char}
    (ends : CommentsEnd old new front) (within : triviaLength (front ++ old) ≤ front.length) :
    commentLength? (front ++ new) = commentLength? (front ++ old) := by
  have comment : ∀ length, commentLength? (front ++ old) = some length → length ≤ front.length := by
    intro length found
    have total := triviaLength_of_comment found
    omega
  have blanks : ((front ++ old).takeWhile isSpace).length ≤ front.length := by
    rw [triviaLength, Trivia.lengthFrom_spaces, Trivia.lengthFrom_blank] at within
    omega
  unfold commentLength? at comment ⊢
  dsimp only at comment ⊢
  rw [takeWhile_append_of_within meets blanks]
  rw [List.drop_append_of_le_length blanks] at comment ⊢
  rw [List.drop_append_of_le_length blanks]
  have left := List.length_drop (i := ((front ++ old).takeWhile isSpace).length) (l := front)
  have ends : CommentsEnd old new (front.drop ((front ++ old).takeWhile isSpace).length) :=
    .of_append (by rwa [List.take_append_drop])
  generalize front.drop ((front ++ old).takeWhile isSpace).length = tail at comment left ends ⊢
  generalize ((front ++ old).takeWhile isSpace).length = passed at comment left ⊢
  by_cases begins : ∃ second rest, (second = '/' ∨ second = '*') ∧ tail ++ old = '/' :: second :: rest
  · obtain ⟨second, rest, known, begins⟩ := begins
    have foreign : second ∉ partingLetters := by rcases known with rfl | rfl <;> decide
    obtain ⟨tail, rfl⟩ := meets.cons_of_append (.inl rfl) (by decide) begins
    obtain ⟨tail, rfl⟩ := meets.cons_of_append (.inl rfl) foreign (List.cons.inj begins).2
    simp only [List.cons_append, List.length_cons] at comment left ⊢
    rcases known with rfl | rfl
    · have short := comment _ rfl
      exact congrArg (fun comment => some (passed + 2 + List.length comment))
        (takeWhile_append_of_within meets (by omega))
    · cases closed : blockCommentTail? (passed + 2) (tail ++ old) with
      | none => exact (blockCommentTail?_append_none meets ends.block closed).trans closed.symm
      | some length =>
        have short := comment length closed
        exact (blockCommentTail?_append meets closed (by omega)).trans closed.symm
  · have none : ∀ text, text = old ∨ text = new → ∀ second rest, second = '/' ∨ second = '*' →
        tail ++ text ≠ '/' :: second :: rest := by
      intro text text_eq second rest known begun
      have foreign : second ∉ partingLetters := by rcases known with rfl | rfl <;> decide
      obtain ⟨after, rfl⟩ := meets.cons_of_append text_eq (by decide) begun
      obtain ⟨after, rfl⟩ := meets.cons_of_append text_eq foreign (List.cons.inj begun).2
      exact begins ⟨second, after ++ old, known, rfl⟩
    split
    · next begun => exact absurd begun (none new (.inr rfl) _ _ (.inl rfl))
    · next begun => exact absurd begun (none new (.inr rfl) _ _ (.inr rfl))
    · split
      · next begun => exact absurd begun (none old (.inl rfl) _ _ (.inl rfl))
      · next begun => exact absurd begun (none old (.inl rfl) _ _ (.inr rfl))
      · rfl

end Comments

section Gaps

/-- Two gaps that end at the same place before the border, or both at the end of their text. What
comes after them is at most as far from the border as `bound` says. -/
inductive Gap.Alike (old new : List Char) (bound : Nat) : Gap → Gap → Prop where
  | refused : Alike old new bound .refused .refused
  | sameLine {front : List Char} (within : triviaLength (front ++ old) ≤ front.length)
      (ends : CommentsEnd old new front) (near : front.length ≤ bound) :
      Alike old new bound (.sameLine (front ++ old)) (.sameLine (front ++ new))
  | passed {front : List Char} (within : triviaLength (front ++ old) ≤ front.length)
      (ends : CommentsEnd old new front) (near : front.length ≤ bound) :
      Alike old new bound (.passed (front ++ old)) (.passed (front ++ new))
  | unclosed : Alike old new bound (.passed []) (.passed [])

theorem Gap.Alike.further {bound further : Nat} {gap other : Gap} (alike : Alike old new bound gap other)
    (more : bound ≤ further) : Alike old new further gap other := by
  cases alike with
  | refused => exact .refused
  | sameLine within ends near => exact .sameLine within ends (Nat.le_trans near more)
  | passed within ends near => exact .passed within ends (Nat.le_trans near more)
  | unclosed => exact .unclosed

namespace GapReader

/-- What the reader of blanks and comments calls the same place. -/
def trivia (since : Nat) : GapReader → Trivia
  | .between _ => .blank
  | .lineComment _ => .lineComment
  | .blockComment _ => .blockComment since

theorem read_unclosed {all broken : Bool} {passed : Nat} {text : List Char}
    (unclosed : blockCommentTail? passed text = none) :
    read all (.blockComment broken) text = .passed [] := by
  fun_induction blockCommentTail? passed text generalizing broken with
  | case1 => rfl
  | case2 => cases unclosed
  | case3 passed c rest other inductionHypothesis =>
    rw [read]
    · exact inductionHypothesis unclosed
    · exact other

/-- The step at a character that begins no comment before the border, whatever comes after it. -/
theorem read_plain (meets : Meets old new) {all broken : Bool} {c : Char} {rest text : List Char}
    (text_eq : text = old ∨ text = new) (noLine : ∀ after, c = '/' → rest = '/' :: after → False)
    (noBlock : ∀ after, c = '/' → rest = '*' :: after → False) :
    read all (.between broken) (c :: rest ++ text) =
      if c == '/' then .refused
      else if isLineBlank c then read all (.between broken) (rest ++ text)
      else .passed (c :: rest ++ text) := by
  rw [List.cons_append, read]
  · exact meets.apart text_eq (by decide) noLine
  · exact meets.apart text_eq (by decide) noBlock

/-- The step at a character of a block comment that does not end it before the border. -/
theorem read_unclosing (meets : Meets old new) {all broken : Bool} {c : Char} {rest text : List Char}
    (text_eq : text = old ∨ text = new) (other : ∀ after, c = '*' → rest = '/' :: after → False) :
    read all (.blockComment broken) (c :: rest ++ text) =
      read all (.blockComment (broken || isLineBreak c)) (rest ++ text) := by
  rw [List.cons_append, read]
  exact meets.apart text_eq (by decide) other

theorem head?_slash (meets : Meets old new) {front text : List Char}
    (text_eq : text = old ∨ text = new) :
    ((front ++ text).head? == some '/') = (front.head? == some '/') := by
  cases front with
  | cons c rest => rfl
  | nil =>
    have letters : ∀ c ∈ partingLetters, c ≠ '/' := forall_partingLetters.mpr (by decide)
    rcases meets.nil_or_cons with ⟨rfl, rfl⟩ | ⟨letter, among, rest, other, rfl, rfl⟩
    · rcases text_eq with rfl | rfl <;> rfl
    · rcases text_eq with rfl | rfl <;> simp [letters letter among]

/-- At the border the gap is over, unless both texts are. -/
theorem read_border (meets : Meets old new) {all broken : Bool} (ends : CommentsEnd old new [])
    (within : triviaLength ([] ++ old) ≤ ([] : List Char).length) :
    Gap.Alike old new 0 (read all (.between broken) old) (read all (.between broken) new) := by
  rcases meets.nil_or_cons with ⟨rfl, rfl⟩ | ⟨letter, among, rest, other, rfl, rfl⟩
  · exact .unclosed
  · have letters : ∀ c ∈ partingLetters, c ≠ '/' ∧ isLineBlank c = false :=
      forall_partingLetters.mpr (by decide)
    obtain ⟨noSlash, noBlank⟩ := letters letter among
    have stops : ∀ tail, read all (.between broken) (letter :: tail) = .passed (letter :: tail) := by
      intro tail
      simp [read, noSlash, noBlank]
    rw [stops, stops]
    exact .passed within ends (Nat.le_refl 0)

/-- Where the reader goes on after a character of a line comment. -/
def afterLine (broken : Bool) (c : Char) : GapReader :=
  if isLineBreak c then .between broken else .lineComment broken

theorem ends_afterLine {broken : Bool} {c : Char} {rest : List Char}
    (inside : endsLine (c :: rest) = true) : ((afterLine broken c).trivia 0).Ends old new rest := by
  rw [afterLine]
  split
  · exact trivial
  · next noBreak => exact endsLine_of_noBreak (Bool.eq_false_iff.mpr noBreak) inside

theorem within_afterLine {broken : Bool} {c : Char} {rest : List Char} {passed : Nat}
    (inside : endsLine (c :: rest) = true)
    (within : Trivia.lineComment.lengthFrom passed (c :: rest ++ old) ≤ passed + (c :: rest).length) :
    ((afterLine broken c).trivia 0).lengthFrom (passed + 1) (rest ++ old) ≤
      passed + 1 + rest.length := by
  rw [List.cons_append, Trivia.lengthFrom, List.length_cons] at within
  rw [afterLine]
  by_cases breaks : isLineBreak c = true
  · rw [if_pos (isLineEnd_iff.mpr (.inl breaks))] at within
    rw [if_pos breaks, trivia]
    omega
  · rw [if_neg breaks, trivia]
    by_cases stops : isLineEnd c = true
    · -- A carriage return ends the comment, and the line feed after it the line.
      obtain rfl := (isLineEnd_iff.mp stops).resolve_left breaks
      rw [if_pos stops] at within
      have next : rest.head? = some '\n' := by
        rw [endsLine, if_pos stops] at inside
        simpa using inside
      obtain ⟨tail, rfl⟩ := List.head?_eq_some_iff.mp next
      have feed : isLineEnd '\n' = true := by decide
      rw [List.cons_append] at within ⊢
      rw [Trivia.lengthFrom_blank_space (by decide)] at within
      rw [Trivia.lengthFrom, if_pos feed]
      omega
    · rw [if_neg stops] at within
      omega

/-- A gap before the border is the same in both texts. -/
theorem read_append (meets : Meets old new) {all : Bool} {reader : GapReader} {front : List Char}
    {since passed : Nat} (ends : CommentsEnd old new front)
    (inside : (reader.trivia since).Ends old new front)
    (within : (reader.trivia since).lengthFrom passed (front ++ old) ≤ passed + front.length) :
    Gap.Alike old new front.length (read all reader (front ++ old)) (read all reader (front ++ new)) := by
  fun_induction read all reader front generalizing since passed with
  | case1 broken =>
    rw [trivia, Trivia.lengthFrom_blank] at within
    exact read_border meets ends (by omega)
  | case2 broken rest inductionHypothesis =>
    simp only [List.cons_append, trivia, Trivia.lengthFrom, List.length_cons, read] at within ⊢
    have later : (trivia 0 (.lineComment broken)).lengthFrom (passed + 2) (rest ++ old) ≤
        passed + 2 + rest.length := by
      simp only [trivia]
      omega
    exact (inductionHypothesis ends.tail.tail ends.line later).further (by omega)
  | case3 broken rest inductionHypothesis =>
    simp only [List.cons_append, trivia, Trivia.lengthFrom, List.length_cons, read] at within ⊢
    have later : (trivia passed (.blockComment broken)).lengthFrom (passed + 2) (rest ++ old) ≤
        passed + 2 + rest.length := by
      simp only [trivia]
      omega
    exact (inductionHypothesis ends.tail.tail ends.block later).further (by omega)
  | case4 broken c rest noLine noBlock slash =>
    rw [read_plain meets (.inl rfl) noLine noBlock, if_pos slash,
      read_plain meets (.inr rfl) noLine noBlock, if_pos slash]
    exact .refused
  | case5 broken c rest noLine noBlock noSlash blank inductionHypothesis =>
    rw [List.cons_append, trivia, Trivia.lengthFrom_blank_space (isSpace_of_isLineBlank blank),
      List.length_cons] at within
    have later : (trivia 0 (.between broken)).lengthFrom (passed + 1) (rest ++ old) ≤
        passed + 1 + rest.length := by
      simp only [trivia]
      omega
    rw [read_plain meets (.inl rfl) noLine noBlock, if_neg noSlash, if_pos blank,
      read_plain meets (.inr rfl) noLine noBlock, if_neg noSlash, if_pos blank]
    exact (inductionHypothesis ends.tail trivial later).further (Nat.le_succ _)
  | case6 broken c rest noLine noBlock noSlash noBlank =>
    rw [trivia, Trivia.lengthFrom_blank] at within
    have stops : Gap.Alike old new (c :: rest).length (.passed (c :: rest ++ old))
        (.passed (c :: rest ++ new)) := .passed (by omega) ends (Nat.le_refl _)
    rw [read_plain meets (.inl rfl) noLine noBlock, if_neg noSlash, if_neg noBlank,
      read_plain meets (.inr rfl) noLine noBlock, if_neg noSlash, if_neg noBlank]
    exact stops
  | case7 broken =>
    rcases meets.nil_or_cons with ⟨rfl, rfl⟩ | ⟨letter, among, rest, other, rfl, rfl⟩
    · exact .unclosed
    · have more := Trivia.floor_le_lengthFrom (if isLineEnd letter then .blank else .lineComment)
        (passed + 1) rest
      have next : (if isLineEnd letter then Trivia.blank else .lineComment).floor (passed + 1) =
          passed + 1 := by split <;> rfl
      simp only [trivia, List.nil_append, Trivia.lengthFrom, List.length_nil] at within
      omega
  | case8 broken c rest inductionHypothesis =>
    simp only [List.cons_append, read]
    exact (inductionHypothesis ends.tail (ends_afterLine inside)
      (within_afterLine inside within)).further (Nat.le_succ _)
  | case9 broken =>
    simp only [List.nil_append, trivia, Trivia.lengthFrom_blockComment, List.length_nil] at within ⊢
    cases closed : blockCommentTail? passed old with
    | none =>
      have unclosed := blockCommentTail?_append_none meets inside closed
      rw [List.nil_append] at unclosed
      rw [read_unclosed closed, read_unclosed unclosed]
      exact .unclosed
    | some length =>
      have further := lt_blockCommentTail? closed
      rw [closed] at within
      dsimp only at within
      rw [Trivia.lengthFrom_blank] at within
      omega
  | case10 broken rest again inductionHypothesis =>
    simp only [List.cons_append, trivia, Trivia.lengthFrom, List.length_cons, read,
      head?_slash meets (.inl rfl), head?_slash meets (.inr rfl), again, if_true] at within ⊢
    have later : (trivia 0 (.between broken)).lengthFrom (passed + 2) (rest ++ old) ≤
        passed + 2 + rest.length := by
      simp only [trivia]
      omega
    exact (inductionHypothesis ends.tail.tail trivial later).further (by omega)
  | case11 rest again =>
    simp only [List.cons_append, trivia, Trivia.lengthFrom, List.length_cons, read,
      head?_slash meets (.inl rfl), head?_slash meets (.inr rfl), again] at within ⊢
    rw [Trivia.lengthFrom_blank] at within
    exact .passed (by omega) ends.tail.tail (by omega)
  | case12 broken rest again noBreak =>
    simp only [List.cons_append, trivia, Trivia.lengthFrom, List.length_cons, read,
      head?_slash meets (.inl rfl), head?_slash meets (.inr rfl), again, noBreak] at within ⊢
    rw [Trivia.lengthFrom_blank] at within
    exact .sameLine (by omega) ends.tail.tail (by omega)
  | case13 broken c rest other inductionHypothesis =>
    rw [trivia, Trivia.lengthFrom_unclosed meets (.inl rfl) other, List.length_cons] at within
    have later : (trivia since (.blockComment (broken || isLineBreak c))).lengthFrom (passed + 1)
        (rest ++ old) ≤ passed + 1 + rest.length := by
      simp only [trivia]
      omega
    rw [read_unclosing meets (.inl rfl) other, read_unclosing meets (.inr rfl) other]
    exact (inductionHypothesis ends.tail (BlockEnds.tail other inside) later).further (Nat.le_succ _)

theorem read_between_append (meets : Meets old new) {all broken : Bool} {front : List Char}
    (ends : CommentsEnd old new front) (within : triviaLength (front ++ old) ≤ front.length) :
    Gap.Alike old new front.length (read all (.between broken) (front ++ old))
      (read all (.between broken) (front ++ new)) := by
  have short : (trivia 0 (.between broken)).lengthFrom 0 (front ++ old) ≤ 0 + front.length := by
    rw [trivia, Trivia.lengthFrom_blank]
    omega
  exact read_append meets ends trivial short

end GapReader

end Gaps

section LineEnds

theorem startsAfresh_of_other {c : Char} {rest : List Char} (plain : c ∉ ['.', '+', '-', '!'])
    (noIn : c = 'i' → rest.head? ≠ some 'n') :
    startsAfresh (c :: rest) = !"\x60,:;*%><=[(?^|&/".toList.contains c := by
  simp only [List.mem_cons, List.not_mem_nil, or_false, not_or] at plain
  obtain ⟨point, plus, minus, mark⟩ := plain
  rw [startsAfresh]
  · exact point
  · exact plus
  · exact minus
  · exact mark
  · exact fun after same begins => noIn same (by rw [begins]; rfl)

theorem startsAfresh_append (meets : Meets old new) (front : List Char) :
    startsAfresh (front ++ new) = startsAfresh (front ++ old) := by
  cases front with
  | nil =>
    cases meets with
    | finish => rfl
    | token known =>
      simp only [partingTokens, List.map_cons, List.map_nil, List.mem_cons, List.not_mem_nil,
        or_false] at known
      rcases known with rfl | rfl | rfl | rfl | rfl <;> rfl
  | cons c front =>
    have next := meets.head?_append front
    rw [List.cons_append, List.cons_append]
    by_cases looks : c ∈ ['.', '+', '-', '!']
    · simp only [List.mem_cons, List.not_mem_nil, or_false] at looks
      rcases looks with rfl | rfl | rfl | rfl <;> simp only [startsAfresh, next]
    · by_cases operator : c = 'i' ∧ (front ++ old).head? = some 'n'
      · obtain ⟨rfl, begins⟩ := operator
        obtain ⟨tail, begins⟩ := List.head?_eq_some_iff.mp begins
        obtain ⟨front, rfl⟩ := meets.cons_of_append (.inl rfl) (by decide) begins
        have foreign : isForeign "stanceof".toList = true := by decide
        simp only [List.cons_append, startsAfresh, isPrefixOf_append meets foreign (.inl rfl),
          isPrefixOf_append meets foreign (.inr rfl), meets.head?_append front]
        by_cases longer : "stanceof".toList.isPrefixOf front = true
        · have short : "stanceof".toList.length ≤ front.length :=
            (List.isPrefixOf_iff_prefix.mp longer).length_le
          rw [List.drop_append_of_le_length short, List.drop_append_of_le_length short,
            meets.head?_append]
        · simp only [longer, Bool.false_eq_true, if_false]
      · have noIn : c = 'i' → (front ++ old).head? ≠ some 'n' := fun same found =>
          operator ⟨same, found⟩
        rw [startsAfresh_of_other looks noIn, startsAfresh_of_other looks (next ▸ noIn)]

/-- What `lineEndsFrom` asks of the characters on the same line. -/
def endsOnLine (complete : Bool) (n : Nat) : List Char → Bool
  | [] => false
  | c :: rest =>
    if c == '}' then true
    else if isLineBreak c then
      match GapReader.read true (.between false) rest with
      | .refused => false
      | .sameLine ahead | .passed ahead => startsAfresh ahead
    else if isLineBlank c then lineEndsFrom complete n rest
    else false

theorem lineEndsFrom_succ (complete : Bool) (n : Nat) (c : Char) (rest : List Char) :
    lineEndsFrom complete (n + 1) (c :: rest) =
      if c == '/' then
        match GapReader.read false (.between false) (c :: rest) with
        | .refused => false
        | .sameLine ahead => endsOnLine complete n ahead
        | .passed ahead =>
          if !complete && ahead.head? != some ',' && ahead.head? != some '=' then true
          else endsOnLine complete n ahead
      else endsOnLine complete n (c :: rest) := by
  rfl

theorem endsOnLine_append (meets : Meets old new) {complete : Bool} {n other : Nat}
    {front : List Char} (ends : CommentsEnd old new front)
    (within : triviaLength (front ++ old) ≤ front.length)
    (later : ∀ rest : List Char, rest.length < front.length → CommentsEnd old new rest →
      triviaLength (rest ++ old) ≤ rest.length →
      lineEndsFrom complete other (rest ++ new) = lineEndsFrom complete n (rest ++ old)) :
    endsOnLine complete other (front ++ new) = endsOnLine complete n (front ++ old) := by
  cases front with
  | nil =>
    rcases meets.nil_or_cons with ⟨rfl, rfl⟩ | ⟨letter, among, rest, others, rfl, rfl⟩
    · rfl
    · have letters : ∀ c ∈ partingLetters, isLineBreak c = false ∧ isLineBlank c = false :=
        forall_partingLetters.mpr (by decide)
      obtain ⟨noBreak, noBlank⟩ := letters letter among
      simp [endsOnLine, noBreak, noBlank]
  | cons c front =>
    have shorter : isSpace c = true → triviaLength (front ++ old) ≤ front.length := by
      intro space
      rw [triviaLength, List.cons_append, Trivia.lengthFrom_blank_space space,
        Trivia.lengthFrom_blank, List.length_cons] at within
      omega
    simp only [List.cons_append, endsOnLine]
    split
    · rfl
    · split
      · next breaks =>
        have space := isSpace_of_isLineEnd (isLineEnd_iff.mpr (.inl breaks))
        have alike : Gap.Alike old new front.length
            (GapReader.read true (.between false) (front ++ old))
            (GapReader.read true (.between false) (front ++ new)) :=
          GapReader.read_between_append meets ends.tail (shorter space)
        generalize GapReader.read true (.between false) (front ++ old) = gap at alike
        generalize GapReader.read true (.between false) (front ++ new) = gap' at alike
        cases alike with
        | refused => rfl
        | sameLine => exact startsAfresh_append meets _
        | passed => exact startsAfresh_append meets _
        | unclosed => rfl
      · split
        · next blank =>
          exact later front (Nat.lt_succ_self _) ends.tail
            (shorter (isSpace_of_isLineBlank blank))
        · rfl

theorem lineEndsFrom_append (meets : Meets old new) {complete : Bool} {n other : Nat}
    {front : List Char} (ends : CommentsEnd old new front)
    (within : triviaLength (front ++ old) ≤ front.length) (enough : (front ++ old).length < n)
    (others : (front ++ new).length < other) :
    lineEndsFrom complete other (front ++ new) = lineEndsFrom complete n (front ++ old) := by
  induction n generalizing other front with
  | zero => omega
  | succ n inductionHypothesis =>
    obtain ⟨other, rfl⟩ : ∃ rest, other = rest + 1 := ⟨other - 1, by omega⟩
    have later : ∀ rest : List Char, rest.length < front.length → CommentsEnd old new rest →
        triviaLength (rest ++ old) ≤ rest.length →
        lineEndsFrom complete other (rest ++ new) = lineEndsFrom complete n (rest ++ old) := by
      intro rest shorter ends within
      simp only [List.length_append] at enough others
      exact inductionHypothesis ends within (by rw [List.length_append]; omega)
        (by rw [List.length_append]; omega)
    cases front with
    | nil =>
      have here : endsOnLine complete other ([] ++ new) = endsOnLine complete n ([] ++ old) :=
        endsOnLine_append meets ends within later
      rcases meets.nil_or_cons with ⟨rfl, rfl⟩ | ⟨letter, among, rest, tail, rfl, rfl⟩
      · rfl
      · have letters : ∀ c ∈ partingLetters, (c == '/') = false :=
          forall_partingLetters.mpr (by decide)
        simp only [List.nil_append, lineEndsFrom_succ, letters letter among] at here ⊢
        exact here
    | cons c front =>
      have here := endsOnLine_append meets ends within later
      have alike : Gap.Alike old new (c :: front).length
          (GapReader.read false (.between false) (c :: front ++ old))
          (GapReader.read false (.between false) (c :: front ++ new)) :=
        GapReader.read_between_append meets ends within
      rw [List.cons_append, List.cons_append] at here alike ⊢
      rw [lineEndsFrom_succ, lineEndsFrom_succ]
      split
      · generalize GapReader.read false (.between false) (c :: (front ++ old)) = gap at alike
        generalize GapReader.read false (.between false) (c :: (front ++ new)) = gap' at alike
        cases alike with
        | refused => rfl
        | sameLine within ends near =>
          exact endsOnLine_append meets ends within fun rest shorter =>
            later rest (Nat.lt_of_lt_of_le shorter near)
        | @passed ahead within ends near =>
          have online := endsOnLine_append meets ends within fun rest shorter =>
            later rest (Nat.lt_of_lt_of_le shorter near)
          simp only [meets.head?_append ahead, online]
        | unclosed => rfl
      · exact here

theorem commentLength?_pos {text : List Char} {length : Nat}
    (comment : commentLength? text = some length) : 0 < length := by
  unfold commentLength? at comment
  dsimp only at comment
  split at comment
  · obtain rfl := Option.some.inj comment
    omega
  · have further := lt_blockCommentTail? comment
    omega
  · cases comment

theorem lineEndsWithin_append (meets : Meets old new) {complete : Bool} {n other : Nat}
    {front : List Char} (ends : CommentsEnd old new front)
    (within : triviaLength (front ++ old) ≤ front.length) (enough : (front ++ old).length < n)
    (others : (front ++ new).length < other) :
    lineEndsWithin complete other (front ++ new) = lineEndsWithin complete n (front ++ old) := by
  induction n generalizing other front with
  | zero => omega
  | succ n inductionHypothesis =>
    obtain ⟨other, rfl⟩ : ∃ rest, other = rest + 1 := ⟨other - 1, by omega⟩
    rw [lineEndsWithin, lineEndsWithin,
      lineEndsFrom_append meets ends within (Nat.lt_succ_self _) (Nat.lt_succ_self _),
      commentLength?_append meets ends within]
    cases comment : commentLength? (front ++ old) with
    | none => rfl
    | some length =>
      have total := triviaLength_of_comment comment
      have positive := commentLength?_pos comment
      have short : length ≤ front.length := by omega
      have split : front = front.take length ++ front.drop length := (List.take_append_drop _ _).symm
      have left := List.length_drop (i := length) (l := front)
      rw [List.drop_append_of_le_length short] at total
      simp only [List.length_append] at enough others
      dsimp only
      rw [List.drop_append_of_le_length short, List.drop_append_of_le_length short,
        inductionHypothesis (.of_append (split ▸ ends)) (by omega)
          (by rw [List.length_append]; omega) (by rw [List.length_append]; omega)]

end LineEnds

end ImportRedirect.Script
