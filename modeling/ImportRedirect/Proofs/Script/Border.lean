import ImportRedirect.Proofs.Script.Parting.LineEnd
import ImportRedirect.Proofs.Script.Layout

/-!
Cursors before a border, and where they stand in the other text. `Clear` says that no token that is
looked at from here goes on beyond the border.
-/

namespace ImportRedirect.Script

/-- The text from the next token on. -/
def tokenText (text : List Char) : List Char := text.drop (triviaLength text)

variable {old new : List Char}

section Clear

/-- The next token is the one at the border or lies before it, and so do the tokens after it as far
as they may be looked at. -/
inductive Clear (old : List Char) : List Char → Prop where
  | reached {text : List Char} (here : tokenText text = old) : Clear old text
  | chained {text front : List Char} (token : tokenText text = front ++ old) (before : front ≠ [])
      (chain : (Lexeme.first (front ++ old)).chained = true)
      (later : Clear old ((front ++ old).drop (Lexeme.first (front ++ old)).length)) : Clear old text
  | other {text front : List Char} (token : tokenText text = front ++ old) (before : front ≠ [])
      (apart : (Lexeme.first (front ++ old)).chained = false) : Clear old text

theorem Trivia.lengthFrom_le {state : Trivia} {passed : Nat} {text : List Char}
    (begun : ∀ since, state = .blockComment since → since ≤ passed) :
    state.lengthFrom passed text ≤ passed + text.length := by
  fun_induction lengthFrom state passed text with
  | case1 | case5 | case6 => simp
  | case2 passed rest inductionHypothesis =>
    have bound := inductionHypothesis (by simp)
    simp only [List.length_cons]
    omega
  | case3 passed rest inductionHypothesis =>
    have bound := inductionHypothesis (by simp)
    simp only [List.length_cons]
    omega
  | case4 passed c rest _ _ _ inductionHypothesis =>
    have bound := inductionHypothesis (by simp)
    simp only [List.length_cons]
    omega
  | case7 passed c rest inductionHypothesis =>
    have bound := inductionHypothesis (by split <;> simp)
    simp only [List.length_cons]
    omega
  | case8 since passed => exact Nat.le_add_right_of_le (begun since rfl)
  | case9 since passed rest inductionHypothesis =>
    have bound := inductionHypothesis (by simp)
    simp only [List.length_cons]
    omega
  | case10 since passed c rest _ inductionHypothesis =>
    have started := begun since rfl
    have bound := inductionHypothesis (by rintro _ ⟨⟩; omega)
    simp only [List.length_cons]
    omega

theorem triviaLength_le (text : List Char) : triviaLength text ≤ text.length := by
  rw [← Nat.zero_add text.length]
  exact Trivia.lengthFrom_le (by simp)

theorem tokenText_drop_comment {text : List Char} {length : Nat}
    (comment : commentLength? text = some length) :
    tokenText (text.drop length) = tokenText text := by
  rw [tokenText, tokenText, List.drop_drop, triviaLength_of_comment comment]

/-- No blank or comment stands before a token. -/
theorem tokenText_tokenText (text : List Char) : tokenText (tokenText text) = tokenText text := by
  cases comment : commentLength? text with
  | some length =>
    have shorter : text.length - length < text.length := by
      have positive := commentLength?_pos comment
      have total := triviaLength_of_comment comment
      have bound := triviaLength_le text
      omega
    rw [← tokenText_drop_comment comment]
    exact tokenText_tokenText (text.drop length)
  | none =>
    have blanks := triviaLength_of_none comment
    have more := Trivia.lengthFrom_spaces 0 text
    rw [Trivia.lengthFrom_blank, Nat.zero_add] at more
    have zero : triviaLength (text.drop (triviaLength text)) = 0 := by
      rw [blanks]
      rw [Trivia.lengthFrom_blank] at more
      omega
    rw [tokenText, tokenText, zero, List.drop_zero]
termination_by text.length
/-- When the next token lies before the border, so do the blanks and comments before it. -/
theorem within_of_tokenText {text front : List Char} (token : tokenText text = front ++ old) :
    ∃ blanks, text = blanks ++ front ++ old ∧ triviaLength text = blanks.length := by
  refine ⟨text.take (triviaLength text), ?_, ?_⟩
  · rw [List.append_assoc, ← token, tokenText, List.take_append_drop]
  · rw [List.length_take, Nat.min_eq_left (triviaLength_le text)]

theorem tokenText_append (meets : Meets old new) {blanks front : List Char}
    (ends : CommentsEnd old new (blanks ++ front))
    (blank : triviaLength (blanks ++ front ++ old) = blanks.length) :
    tokenText (blanks ++ front ++ new) = front ++ new := by
  have same := triviaLength_append meets ends (by rw [blank, List.length_append]; omega)
  rw [tokenText, same, blank, List.append_assoc, List.drop_left]

theorem Lexeme.length_first_le (text : List Char) : (Lexeme.first text).length ≤ text.length := by
  cases text with
  | nil => exact Nat.le_refl 0
  | cons c rest =>
    have bound := nameLength_le rest
    simp only [Lexeme.first]
    split
    · simp only [Lexeme.length, String.length_ofList, List.length_take]
      exact Nat.min_le_right _ _
    · split
      · exact Nat.zero_le _
      · split
        · exact Nat.zero_le _
        · split
          · exact Nat.succ_le_succ bound
          · have begins : ∀ found : List Char, longMarks.find? (·.isPrefixOf (c :: rest)) = some found →
                found.length ≤ rest.length + 1 := by
              intro found first
              have begins := List.find?_some first
              exact (List.isPrefixOf_iff_prefix.mp begins).length_le
            split
            · next found =>
              have two := begins _ found
              split
              · exact Nat.succ_le_succ (Nat.zero_le _)
              · exact two
            · next found _ first => simpa [Lexeme.length] using begins found first
            · simp [Lexeme.length, String.length_singleton]

namespace Clear

variable {text : List Char}

theorem tokenText_eq (clear : Clear old text) : ∃ front, tokenText text = front ++ old := by
  cases clear with
  | reached here => exact ⟨[], here⟩
  | chained token => exact ⟨_, token⟩
  | other token => exact ⟨_, token⟩

/-- A token that may be looked past lies before the border as a whole. -/
theorem length_first_le (clear : Clear old text) {front : List Char}
    (token : tokenText text = front ++ old) (before : front ≠ [])
    (chain : (Lexeme.first (front ++ old)).chained = true) :
    (Lexeme.first (front ++ old)).length ≤ front.length := by
  cases clear with
  | reached here =>
    rw [here] at token
    exact absurd (List.self_eq_append_left.mp token) before
  | @chained _ again token' _ _ later =>
    obtain rfl : again = front := List.append_cancel_right (token'.symm.trans token)
    obtain ⟨further, inside⟩ := later.tokenText_eq
    obtain ⟨blanks, whole, _⟩ := within_of_tokenText inside
    have counted := congrArg List.length whole
    have bound := Lexeme.length_first_le (again ++ old)
    simp only [List.length_drop, List.length_append] at counted bound
    omega
  | @other _ again token' _ apart =>
    obtain rfl : again = front := List.append_cancel_right (token'.symm.trans token)
    simp [apart] at chain

/-- The next token is the same in both texts. -/
theorem first_append (meets : Meets old new) {front : List Char} (clear : Clear old text)
    (token : tokenText text = front ++ old) :
    Lexeme.first (front ++ new) = Lexeme.first (front ++ old) := by
  by_cases before : front = []
  · subst before
    exact Lexeme.first_meets meets
  · exact Lexeme.first_append meets before (clear.length_first_le token before)

end Clear

end Clear

/-- The names at a border. -/
theorem Meets.word_first (meets : Meets old new) {word : String}
    (found : Lexeme.first old = .word word) : word ∈ ["import", "const", "let", "var"] := by
  cases meets with
  | finish => simp [Lexeme.first] at found
  | @token head rest other known completes =>
    by_cases brace : head = ['\x7d']
    · subst brace
      have breaks : isNamePart '\x7d' = false := by decide
      simp [Lexeme.first, nameLength, namePartsLength, namePartLength?, breaks, longMarks] at found
    · rw [Lexeme.first_of_parting known brace (completes brace).1.ends] at found
      obtain rfl := Lexeme.word.inj found
      simp only [partingTokens, List.map_cons, List.map_nil, List.mem_cons, List.not_mem_nil,
        or_false] at known
      rcases known with rfl | rfl | rfl | rfl | rfl <;> simp at brace ⊢

/-- After a name at the border no arrow follows in either text. -/
theorem Meets.noArrow (meets : Meets old new) (chain : (Lexeme.first old).chained = true) :
    Lexeme.first (tokenText (old.drop (Lexeme.first old).length)) ≠ .mark "=>" ∧
      Lexeme.first (tokenText (new.drop (Lexeme.first new).length)) ≠ .mark "=>" := by
  have same := Lexeme.first_meets meets
  rw [same]
  cases meets with
  | finish => simp [Lexeme.first, Lexeme.chained] at chain
  | @token head rest other known completes =>
    by_cases brace : head = ['\x7d']
    · subst brace
      have breaks : isNamePart '\x7d' = false := by decide
      simp [Lexeme.first, nameLength, namePartsLength, namePartLength?, breaks, longMarks,
        Lexeme.chained] at chain
    · obtain ⟨here, there⟩ := completes brace
      have length : (Lexeme.first (head ++ rest)).length = head.length := by
        rw [Lexeme.first_of_parting known brace here.ends]
        simp [Lexeme.length]
      rw [length, List.drop_left, List.drop_left]
      exact ⟨here.noArrow, there.noArrow⟩

/-- Two scripts that agree from some byte on up to a border. -/
structure Border where
  old : List Char
  new : List Char
  /-- Where they begin to agree. -/
  start : Nat
  place : Nat
  oldSize : Nat
  newSize : Nat
  meets : Meets old new
  sizes : newSize + start + byteLength old = oldSize + place + byteLength new

namespace Cursor

attribute [ext] Cursor

theorem drop_eq (n : Nat) (c : Cursor) :
    c.drop n = ⟨c.offset + byteLength (c.rest.take n), c.rest.drop n, c.reached, c.size⟩ := by
  induction n generalizing c with
  | zero => rfl
  | succ n inductionHypothesis =>
    obtain ⟨offset, rest, reached, size⟩ := c
    cases rest with
    | nil => rfl
    | cons character rest =>
      rw [drop, inductionHypothesis]
      simp [Nat.add_assoc]

@[simp] theorem rest_drop (n : Nat) (c : Cursor) : (c.drop n).rest = c.rest.drop n := by
  rw [drop_eq]

theorem rest_tokenAfter (c : Cursor) : (c.tokenAfter 0).rest = tokenText c.rest := by
  rw [tokenAfter, rest_drop]
  rfl

theorem rest_past (c : Cursor) (count : Nat) :
    (c.past count).rest = (tokenText c.rest).drop count := by
  rw [past_eq, ← rest_tokenAfter, ← rest_drop]
  rfl

theorem Leads.size_eq {first second : Cursor} (leads : first.Leads second) :
    second.size = first.size := by
  induction leads with
  | refl => rfl
  | step _ inductionHypothesis => exact inductionHypothesis
  | settle _ inductionHypothesis => exact inductionHypothesis

end Cursor

namespace Border

variable {b : Border}

def swap (b : Border) (text : List Char) : List Char :=
  text.take (text.length - b.old.length) ++ b.new

def shift (b : Border) (offset : Nat) : Nat := offset - b.start + b.place

/-- The same place in the other script. -/
def moved (b : Border) (c : Cursor) : Cursor :=
  ⟨b.shift c.offset, b.swap c.rest, b.shift c.reached, b.newSize⟩

@[simp] theorem swap_append (front : List Char) : b.swap (front ++ b.old) = front ++ b.new := by
  simp [swap]

/-- The cursor stands before the border or at it. -/
def Inside (b : Border) (c : Cursor) : Prop := ∃ front, c.rest = front ++ b.old

def Clear (b : Border) (c : Cursor) : Prop := Script.Clear b.old c.rest

/-- Comments that begin in a text before the border end alike in both scripts. -/
def CommentsEnd (b : Border) (text : List Char) : Prop :=
  ∀ front, text = front ++ b.old → Script.CommentsEnd b.old b.new front

theorem CommentsEnd.drop {text : List Char} (ends : b.CommentsEnd text) (n : Nat) :
    b.CommentsEnd (text.drop n) := by
  intro front rest
  refine .of_append (ends (text.take n ++ front) ?_)
  rw [List.append_assoc, ← rest, List.take_append_drop]

/-- A cursor in the first of the two scripts, where they agree already. -/
structure Valid (b : Border) (c : Cursor) : Prop where
  begun : b.start ≤ c.reached
  settled : c.reached ≤ c.offset
  ends : c.offset + byteLength c.rest = b.oldSize
  size : c.size = b.oldSize
  comments : b.CommentsEnd c.rest

theorem Clear.inside {c : Cursor} (clear : b.Clear c) : b.Inside c := by
  obtain ⟨front, token⟩ := Script.Clear.tokenText_eq clear
  obtain ⟨blanks, whole, _⟩ := within_of_tokenText token
  exact ⟨_, whole⟩

theorem Inside.earlier {c d : Cursor} (inside : b.Inside d) (leads : c.Leads d) : b.Inside c := by
  obtain ⟨front, rest⟩ := inside
  obtain ⟨passed, characters, _⟩ := leads.passed
  exact ⟨passed ++ front, by rw [characters, rest, List.append_assoc]⟩

theorem Valid.later {c d : Cursor} (valid : b.Valid c) (leads : c.Leads d) : b.Valid d := by
  obtain ⟨passed, characters, bytes⟩ := leads.passed
  have reached := leads.reached_le valid.settled
  refine ⟨Nat.le_trans valid.begun reached.1, reached.2, ?_, leads.size_eq.trans valid.size, ?_⟩
  · have ends := valid.ends
    rw [characters, byteLength_append] at ends
    omega
  · intro front rest
    exact .of_append (valid.comments (passed ++ front) (by rw [characters, rest, List.append_assoc]))

/-- What is passed before the border is the same in both scripts. -/
theorem Inside.take_drop {c : Cursor} {n : Nat} (inside : b.Inside (c.drop n)) :
    (b.swap c.rest).take n = c.rest.take n ∧ (b.swap c.rest).drop n = b.swap (c.rest.drop n) := by
  obtain ⟨front, rest⟩ := inside.earlier (c.leads_drop n)
  obtain ⟨further, later⟩ := inside
  rw [Cursor.rest_drop, rest] at later
  rw [rest, swap_append]
  by_cases short : n ≤ front.length
  · rw [List.take_append_of_le_length short, List.take_append_of_le_length short,
      List.drop_append_of_le_length short, List.drop_append_of_le_length short, swap_append]
    exact ⟨rfl, rfl⟩
  · have counted := congrArg List.length later
    simp only [List.length_drop, List.length_append] at counted
    have none : b.old = [] := List.eq_nil_of_length_eq_zero (by omega)
    have meets := b.meets
    rcases meets.nil_or_cons with ⟨_, other⟩ | ⟨_, _, _, _, begins, _⟩
    · have same : ∀ text, b.swap text = text := by simp [swap, none, other]
      rw [none, other, same]
      exact ⟨rfl, rfl⟩
    · rw [none] at begins
      cases begins

theorem moved_drop {c : Cursor} {n : Nat} (begun : b.start ≤ c.offset)
    (inside : b.Inside (c.drop n)) : b.moved (c.drop n) = (b.moved c).drop n := by
  obtain ⟨taken, dropped⟩ := inside.take_drop
  rw [Cursor.drop_eq, Cursor.drop_eq, moved, moved]
  dsimp only
  rw [taken, dropped]
  ext
  · simp only [shift]
    omega
  all_goals rfl

theorem moved_settle (c : Cursor) : b.moved c.settle = (b.moved c).settle := rfl

theorem Clear.triviaLength_moved {c : Cursor} (clear : b.Clear c) (valid : b.Valid c) :
    triviaLength (b.moved c).rest = triviaLength c.rest := by
  obtain ⟨front, token⟩ := Script.Clear.tokenText_eq clear
  obtain ⟨blanks, whole, blank⟩ := within_of_tokenText token
  have ends := valid.comments _ whole
  rw [whole] at blank
  rw [moved, whole, swap_append, triviaLength_append b.meets ends]
  rw [blank, List.length_append]
  exact Nat.le_add_right _ _

theorem Clear.inside_token {c : Cursor} (clear : b.Clear c) : b.Inside (c.tokenAfter 0) := by
  rw [Inside, Cursor.rest_tokenAfter]
  exact Script.Clear.tokenText_eq clear

theorem Clear.tokenAfter_moved {c : Cursor} (clear : b.Clear c) (valid : b.Valid c) :
    (b.moved c).tokenAfter 0 = b.moved (c.tokenAfter 0) := by
  have inside := clear.inside_token
  rw [Cursor.tokenAfter, Cursor.tokenAfter, Cursor.drop, Cursor.drop, clear.triviaLength_moved valid]
  exact (moved_drop (Nat.le_trans valid.begun valid.settled) inside).symm

theorem Clear.lexeme_moved {c : Cursor} (clear : b.Clear c) (valid : b.Valid c) :
    ((b.moved c).tokenAfter 0).lexeme = (c.tokenAfter 0).lexeme := by
  obtain ⟨front, token⟩ := Script.Clear.tokenText_eq clear
  rw [clear.tokenAfter_moved valid, Cursor.lexeme, Cursor.lexeme, moved, Cursor.rest_tokenAfter, token,
    swap_append]
  exact Script.Clear.first_append b.meets clear token

end Border

end ImportRedirect.Script
