import ImportRedirect.Proofs.Script.Scan

/-!
Reading an expression passes at least the token ahead. A token that was passed stays passed, so it is
enough to find the first step of each reader that passes one.
-/

namespace ImportRedirect.Script

theorem digitsLength_pos {isDigit : Char → Bool} {c : Char} (digit : isDigit c = true)
    (underscore : isDigit '_' = false) (rest : List Char) :
    digitsLength isDigit (c :: rest) ≠ 0 := by
  unfold digitsLength
  split
  · next characters =>
    obtain ⟨rfl, _⟩ := List.cons.inj characters
    simp [underscore] at digit
  · next characters =>
    obtain ⟨rfl, rfl⟩ := List.cons.inj characters
    simp [digit]
  · simp_all

theorem numberLength_ne_zero {c : Char} {rest : List Char}
    (begins : (c.isDigit || (c == '.' && rest.head?.any Char.isDigit)) = true) :
    numberLength (c :: rest) ≠ 0 := by
  have based : ∀ isDigit rest, basedLength isDigit rest ≠ 0 := by
    intro isDigit rest
    unfold basedLength
    dsimp only
    split <;> omega
  unfold numberLength
  split
  all_goals first | exact based _ _ | skip
  dsimp only
  by_cases digit : c.isDigit = true
  · have whole : digitRunLength Char.isDigit (c :: rest) ≠ 0 := by
      simp only [digitRunLength, List.head?_cons, Option.any_some, digit, if_true]
      exact digitsLength_pos digit (by decide) rest
    split <;> omega
  · have point : c = '.' := by simp_all
    subst point
    have none : digitRunLength Char.isDigit ('.' :: rest) = 0 := by
      simp [digitRunLength, digit]
    rw [none]
    simp only [List.drop_zero]
    omega

/-- Every token that says how long it is has at least one character. -/
theorem Lexeme.length_first_ne_zero {ahead : List Char} (finish : Lexeme.first ahead ≠ .finish)
    (number : Lexeme.first ahead ≠ .number) (quote : ∀ mark, Lexeme.first ahead ≠ .quote mark) :
    (Lexeme.first ahead).length ≠ 0 := by
  cases ahead with
  | nil => simp [Lexeme.first] at finish
  | cons c rest =>
    simp only [Lexeme.first] at *
    split
    · next name =>
      simp only [Lexeme.length, String.length_ofList, List.length_take, List.length_cons]
      simp only [bne_iff_ne] at name
      omega
    · split
      · next digit => simp_all
      · split
        · next mark => exact absurd (by simp_all) (quote c)
        · split
          · simp [Lexeme.length]
          · split
            · split <;> decide
            · next found =>
              have listed := List.mem_of_find?_eq_some found
              have nonempty : ∀ mark ∈ longMarks, mark.length ≠ 0 := by decide
              simpa [Lexeme.length] using nonempty _ listed
            · simp [Lexeme.length, String.length_singleton]

/-- A quoted text is longer than what was passed of it before. -/
theorem quotedLength?_ne_zero (quote : Char) (passed skip : Nat) (ahead : List Char) :
    quotedLength? quote passed skip ahead ≠ some 0 := by
  induction ahead generalizing passed skip with
  | nil => simp [quotedLength?]
  | cons c rest inductionHypothesis =>
    unfold quotedLength?
    split
    · exact inductionHypothesis _ _
    · split
      · simp
      · split
        · simp
        · split
          · split
            · exact inductionHypothesis _ _
            · simp
          · exact inductionHypothesis _ _

namespace Cursor

/-- A token was passed that starts at this byte or after it. -/
structure Beyond (c : Cursor) (start : Nat) : Prop where
  passed : start < c.reached
  settled : c.reached ≤ c.offset

theorem Beyond.later {first second : Cursor} {start : Nat} (beyond : first.Beyond start)
    (leads : first.Leads second) : second.Beyond start := by
  obtain ⟨further, settled⟩ := leads.reached_le beyond.settled
  exact ⟨Nat.lt_of_lt_of_le beyond.passed further, settled⟩

theorem beyond_past {c : Cursor} {count : Nat} (some : count ≠ 0)
    (left : (c.tokenAfter 0).rest ≠ []) : (c.past count).Beyond (c.tokenAfter 0).offset := by
  rw [past_eq]
  exact ⟨offset_lt_drop some left, Nat.le_refl _⟩

theorem rest_ne_nil {c : Cursor} (finish : c.lexeme ≠ .finish) : c.rest ≠ [] := by
  intro empty
  exact finish (by rw [lexeme, empty]; rfl)

variable {c : Cursor} {lexeme : Lexeme}

theorem beyond_past_of_lexeme {count : Nat} (found : (c.tokenAfter 0).lexeme = lexeme)
    (finish : lexeme ≠ .finish) (some : count ≠ 0) :
    (c.past count).Beyond (c.tokenAfter 0).offset :=
  beyond_past some (rest_ne_nil (by rw [found]; exact finish))

theorem beyond_past_length (found : (c.tokenAfter 0).lexeme = lexeme)
    (finish : lexeme ≠ .finish) (number : lexeme ≠ .number)
    (quote : ∀ mark, lexeme ≠ .quote mark) :
    (c.past lexeme.length).Beyond (c.tokenAfter 0).offset := by
  refine beyond_past_of_lexeme found finish ?_
  subst found
  exact Lexeme.length_first_ne_zero finish number quote

theorem beyond_past_word {word : String} (found : (c.tokenAfter 0).lexeme = .word word) :
    (c.past word.length).Beyond (c.tokenAfter 0).offset :=
  beyond_past_length found (by simp) (by simp) (by simp)

theorem beyond_past_mark {mark : String} (found : (c.tokenAfter 0).lexeme = .mark mark) :
    (c.past mark.length).Beyond (c.tokenAfter 0).offset :=
  beyond_past_length found (by simp) (by simp) (by simp)

theorem beyond_past_number (found : (c.tokenAfter 0).lexeme = .number) :
    (c.past (numberLength (c.tokenAfter 0).rest)).Beyond (c.tokenAfter 0).offset := by
  have finish : (c.tokenAfter 0).lexeme ≠ .finish := by simp [found]
  refine beyond_past ?_ (rest_ne_nil finish)
  cases characters : (c.tokenAfter 0).rest with
  | nil => exact absurd characters (rest_ne_nil finish)
  | cons first rest =>
    apply numberLength_ne_zero
    rw [lexeme, characters] at found
    simp only [Lexeme.first] at found
    split at found
    · simp at found
    · split at found
      · assumption
      · repeat' split at found
        all_goals simp at found

end Cursor

namespace Scan

variable {α β : Type} {origin : Cursor}

/-- The reader passes at least the token ahead. -/
def Passes (scan : Scan α) (origin : Cursor) : Prop :=
  scan.Ensures origin fun _ c => c.Beyond (origin.tokenAfter 0).offset

theorem ensures_beyond (scan : Scan α) {start : Nat} (beyond : origin.Beyond start) :
    scan.Ensures origin fun _ c => c.Beyond start :=
  ensures_of_leads fun _ _ leads => beyond.later leads

theorem passes_bind {first : Scan α} (passes : first.Passes origin) (next : α → Scan β) :
    (first >>= next).Passes origin := by
  rw [Passes, ensures_bind]
  exact Ensures.mono passes fun a c _ beyond => ensures_beyond (next a) beyond

theorem passes_ahead {next : Cursor → Scan β} (passes : (next (origin.tokenAfter 0)).Passes origin) :
    (ahead >>= next).Passes origin := by
  rw [Passes, ensures_bind, ensures_ahead]
  exact passes

theorem passes_second {next : Lexeme → Scan β} (passes : ∀ lexeme, (next lexeme).Passes origin) :
    (second >>= next).Passes origin := by
  rw [Passes, ensures_bind, ensures_second]
  exact passes _

theorem passes_require {condition : Bool} {next : Unit → Scan β}
    (passes : condition = true → (next ()).Passes origin) :
    (require condition >>= next).Passes origin := by
  rw [Passes, ensures_bind, ensures_require]
  exact passes

theorem passes_unexpected : (unexpected : Scan α).Passes origin := ensures_unexpected _

theorem passes_pass {count : Nat} (beyond : (origin.past count).Beyond (origin.tokenAfter 0).offset) :
    (pass count).Passes origin := by
  rw [Passes, ensures_pass]
  exact beyond

theorem passes_expectMark (mark : String) : (expectMark mark).Passes origin := by
  rw [Passes, expectMark, ensures_expect]
  exact fun found => Cursor.beyond_past_mark found

theorem passes_expectWord (word : String) : (expectWord word).Passes origin := by
  rw [Passes, expectWord, ensures_expect]
  exact fun found => Cursor.beyond_past_word found

theorem text_ne_empty {extent : Extent} (longer : extent.start < extent.stop)
    (left : extent.ahead ≠ []) : extent.text ≠ "" := by
  obtain ⟨start, ahead, stop⟩ := extent
  cases ahead with
  | nil => exact absurd rfl left
  | cons c rest =>
    obtain ⟨length, size⟩ : ∃ length, stop - start = length + 1 :=
      ⟨stop - start - 1, by simp only at longer; omega⟩
    simp [Extent.text, size, takeBytes]

theorem ensures_name : name.Ensures origin fun extent c =>
    extent.text ≠ "" ∧ c.Beyond (origin.tokenAfter 0).offset := by
  simp only [name, ensures_bind, ensures_ahead]
  split
  · next word found =>
    simp only [ensures_bind, ensures_require, ensures_pass, ensures_extentFrom]
    intro _
    have beyond := Cursor.beyond_past_word found
    exact ⟨text_ne_empty beyond.passed (Cursor.rest_ne_nil (by simp [found])), beyond⟩
  · exact ensures_unexpected _

theorem passes_name : name.Passes origin := ensures_name.mono fun _ _ _ holds => holds.2

theorem passes_quotedText : quotedText.Passes origin := by
  refine passes_ahead ?_
  split
  · next found =>
    split
    · next length measured =>
      refine passes_bind (passes_pass (Cursor.beyond_past_of_lexeme found (by simp) ?_)) _
      rintro rfl
      exact absurd measured (quotedLength?_ne_zero _ _ _ _)
    · exact passes_unexpected
  · exact passes_unexpected

end Scan

namespace Readers

open Scan

variable {read : Readers} {origin : Cursor}

theorem passes_acceptText {text : String} {β : Type} {next : Bool → Scan β}
    (nonempty : text.toList ≠ []) (missing : (next false).Passes origin) :
    (acceptText text >>= next).Passes origin := by
  simp only [Passes, acceptText, seesText, ensures_bind, ensures_ahead, ensures_pure]
  split
  · next starts =>
    simp only [ensures_bind, ensures_pass, ensures_pure]
    refine ensures_beyond _ (Cursor.beyond_past ?_ ?_)
    · intro none
      exact nonempty (by simpa using none)
    · intro none
      rw [none] at starts
      exact nonempty (by simpa using starts)
  · rw [ensures_pure]
    exact missing

theorem passes_markup : read.markup.Passes origin := by
  refine passes_ahead ?_
  refine passes_acceptText (by decide) ?_
  exact passes_require (by simp)

theorem passes_wordOperand {word : String} (found : (origin.tokenAfter 0).lexeme = .word word)
    (first : Cursor) (mode : Mode) : (read.wordOperand first mode word).Passes origin := by
  have passed := fun {β : Type} (next : Unit → Scan β) =>
    passes_bind (passes_pass (Cursor.beyond_past_word found)) next
  unfold wordOperand
  split
  all_goals first
    | exact passed _
    | exact passes_bind passes_name _

theorem passes_decorators (found : (origin.tokenAfter 0).lexeme = .mark "@") :
    read.decorators.Passes origin := by
  refine passes_bind ?_ _
  rw [Passes, many, ensures_bind, ensures_cursor, manyWithin]
  refine passes_bind (passes_bind ?_ _) _
  rw [Passes, acceptMark, ensures_accept, if_pos found]
  exact Cursor.beyond_past_mark found

theorem passes_primary (markup : ∀ origin, (read .markup).Passes origin) (mode : Mode) :
    (read.primary mode).Passes origin := by
  refine passes_ahead ?_
  split
  · next found => exact passes_wordOperand found _ _
  · next found => exact passes_bind (passes_pass (Cursor.beyond_past_number found)) _
  · exact passes_bind passes_quotedText _
  · exact passes_bind (passes_expectMark _) _
  · exact passes_bind (passes_expectMark _) _
  · exact passes_bind (passes_expectMark _) _
  · next found => exact passes_bind (passes_pass (Cursor.beyond_past_mark found)) _
  · next found =>
    split
    · exact passes_bind (passes_pass (Cursor.beyond_past_of_lexeme found (by simp) (by omega))) _
    · exact passes_unexpected
  · next found =>
    split
    · exact passes_bind (passes_pass (Cursor.beyond_past_of_lexeme found (by simp) (by omega))) _
    · exact passes_unexpected
  · next found => exact passes_bind (passes_decorators found) _
  · split
    · exact markup origin
    · exact passes_unexpected
  · exact passes_unexpected

theorem passes_operand (markup : ∀ origin, (read .markup).Passes origin) (mode : Mode) :
    (read.operand mode).Passes origin := by
  have primary : (read.primary mode).Passes origin := passes_primary markup mode
  have plain := fun {β : Type} (next : Piece → Scan β) => passes_bind primary next
  refine passes_ahead ?_
  split
  · next mark found =>
    have passed := passes_pass (Cursor.beyond_past_mark found)
    dsimp only
    split
    · exact passes_bind passed _
    · split
      · exact passes_bind (passes_pass (Cursor.beyond_past_of_lexeme found (by simp) (by omega))) _
      · exact plain _
  · next word found =>
    have passed := passes_pass (Cursor.beyond_past_word found)
    have known := fun {count : Nat} (some : count ≠ 0) =>
      passes_pass (Cursor.beyond_past_of_lexeme found (by simp) some)
    dsimp only
    split
    · exact passes_bind passed _
    · split
      · exact passes_bind (known (by omega)) _
      · split
        · exact passes_bind (known (by omega)) _
        · exact plain _
  · exact plain _

theorem passes_expression (markup : ∀ origin, (read .markup).Passes origin) (mode : Mode) :
    (read.expression mode).Passes origin := by
  refine passes_ahead ?_
  dsimp only
  split
  · next found =>
    exact passes_bind
      (passes_pass (Cursor.beyond_past_length found (by simp) (by simp) (by simp))) _
  · exact passes_bind (passes_operand markup mode) _

theorem passes_valueIn (expression : ∀ origin mode, (read (.expression mode)).Passes origin)
    (mode : Mode) : (read.valueIn mode).Passes origin :=
  passes_bind (expression origin mode) _

theorem passes_sequence (expression : ∀ origin mode, (read (.expression mode)).Passes origin)
    (mode : Mode) : (read.sequence mode).Passes origin :=
  passes_bind (passes_valueIn expression mode) _

end Readers

open Readers in
theorem passes_readMarkup (depth : Nat) (origin : Cursor) : (reader depth .markup).Passes origin := by
  cases depth with
  | zero => exact Scan.passes_unexpected
  | succ depth => exact passes_markup

open Readers in
theorem passes_readExpression (depth : Nat) (origin : Cursor) (mode : Mode) :
    (reader depth (.expression mode)).Passes origin := by
  cases depth with
  | zero => exact Scan.passes_unexpected
  | succ depth => exact passes_expression (passes_readMarkup depth) mode

end ImportRedirect.Script
