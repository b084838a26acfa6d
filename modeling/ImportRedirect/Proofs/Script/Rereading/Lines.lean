import ImportRedirect.Proofs.Script.Comment
import ImportRedirect.Proofs.Script.Rewriting

/-!
Drafts that are written one after the other, each on a line of its own, are read one after the other.
-/

namespace ImportRedirect.Script

open Node Value

/-- Only a star lets a text end a comment with what is written after it. -/
theorem Unended.cons {c : Char} {rest : List Char} (unended : Unended rest) (other : c ≠ '*') :
    Unended (c :: rest) := by
  rw [Unended, List.infix_cons_iff, not_or]
  refine ⟨?_, unended⟩
  rintro ⟨tail, whole⟩
  exact other (List.cons.inj whole).1.symm

namespace Draft

/-- The word with which the draft begins. -/
def keyword : Draft → String
  | .importing .. => "import"
  | .requiring binder .. => binder.name

/-- The characters after the word. -/
def tail : Draft → List Char
  | .importing clause source attributes => ' ' :: importingText clause source attributes
  | .requiring _ target callee argument member => ' ' :: declarationText target callee argument member

theorem toList_text (draft : Draft) : draft.text.toList = draft.keyword.toList ++ draft.tail := by
  cases draft with
  | importing clause source attributes => exact importing_written clause source attributes
  | requiring binder target callee argument member =>
    exact requiring_written binder target callee argument member

theorem mem_keywords (draft : Draft) : draft.keyword ∈ ["import", "const", "let", "var"] := by
  cases draft with
  | importing => simp [keyword]
  | requiring binder => cases binder <;> simp [keyword, Binder.name]

theorem tail_eq_cons (draft : Draft) : ∃ rest, draft.tail = ' ' :: rest := by
  cases draft <;> exact ⟨_, rfl⟩

theorem tail_closed (draft : Draft) : ∃ front, draft.tail = front ++ [';'] := by
  cases draft with
  | importing clause source attributes =>
    exact ⟨' ' :: (clauseText clause ++ ' ' :: ("from".toList ++
      ' ' :: (source.raw.toList ++ attributesText attributes))), by simp [tail, importingText]⟩
  | requiring binder target callee argument member =>
    exact ⟨' ' :: (target.text.toList ++ ' ' :: '=' :: ' ' :: (callee.text.toList ++
      '(' :: (argument.raw.toList ++ ')' :: memberText member))), by simp [tail, declarationText]⟩

/-- The word is complete, and no arrow comes after it. -/
theorem completes (draft : Draft) (after : List Char) : Completes (draft.tail ++ after) := by
  obtain ⟨rest, spaced⟩ := draft.tail_eq_cons
  refine ⟨by rw [spaced]; exact namePartLength?_space _, ?_⟩
  obtain ⟨token, further, begins, other⟩ : ∃ token further,
      Begins (draft.tail ++ after) token further ∧ token ≠ .mark "=>" := by
    cases draft with
    | importing clause source attributes =>
      obtain ⟨token, further, begins, kinds⟩ := clause.begins ("from".toList ++
        ' ' :: (source.raw.toList ++ (attributesText attributes ++ ';' :: after)))
      refine ⟨token, further, ?_, ?_⟩
      · rw [tail, List.cons_append, importingText_append]
        exact begins
      · rcases kinds with ⟨_, rfl⟩ | rfl | rfl <;> simp
    | requiring binder target callee argument member =>
      have begins := target.readable.word.begins_spaced ('=' :: ' ' :: (callee.text.toList ++
        '(' :: (argument.raw.toList ++ ')' :: (memberText member ++ ';' :: after))))
      exact ⟨_, _, by simpa [tail, declarationText] using begins, by simp⟩
  have first : Lexeme.first (tokenText (draft.tail ++ after)) = token := begins.first
  exact fun arrow => other (first.symm.trans arrow)

/-- Nothing is skipped before a draft. -/
theorem tokenText_append (draft : Draft) (after : List Char) :
    tokenText (draft.text.toList ++ after) = draft.text.toList ++ after := by
  rw [toList_text, List.append_assoc]
  exact (word_of_keyword draft.mem_keywords).tokenText_append _

theorem unended_append (draft : Draft) {after : List Char} (joins : Joins draft.text.toList)
    (unended : Unended after) : Unended (draft.text.toList ++ after) := by
  obtain ⟨front, closed⟩ := draft.tail_closed
  have text : draft.text.toList = draft.keyword.toList ++ front ++ [';'] := by
    rw [toList_text, closed, List.append_assoc]
  rw [text] at joins ⊢
  have semicolon : Joins (';' :: after) := ⟨unended.cons (by decide), by simp⟩
  rw [List.append_assoc]
  exact semicolon.unended_append joins.unended.left

/-- Drafts on lines of their own, and the characters after them. -/
def lines (after : List Char) : Draft → List Draft → List Char
  | first, [] => first.text.toList ++ after
  | first, second :: others => first.text.toList ++ '\n' :: lines after second others

variable {after : List Char} {first : Draft} {others : List Draft}

theorem lines_eq : lines after first others =
    ("\n".intercalate ((first :: others).map Draft.text)).toList ++ after := by
  rw [String.toList_intercalate]
  induction others generalizing first with
  | nil => simp [lines]
  | cons second others inductionHypothesis => simp [lines, inductionHypothesis]

theorem lines_eq_append : ∃ rest, lines after first others = first.text.toList ++ rest := by
  cases others with
  | nil => exact ⟨after, rfl⟩
  | cons second others => exact ⟨_, rfl⟩

theorem length_le_lines : (∀ draft ∈ first :: others, draft.text.length ≤ (lines after first others).length) ∧
    after.length ≤ (lines after first others).length := by
  induction others generalizing first with
  | nil => simp [lines, String.length_toList]
  | cons second others inductionHypothesis =>
    obtain ⟨each, rest⟩ := @inductionHypothesis second
    have longer : (lines after first (second :: others)).length =
        first.text.length + ((lines after second others).length + 1) := by
      simp [lines, String.length_toList]
    refine ⟨List.forall_mem_cons.mpr ⟨by omega, fun draft membership => ?_⟩, by omega⟩
    have shorter := each draft membership
    omega

theorem unended_lines (joins : ∀ draft ∈ first :: others, Joins draft.text.toList)
    (unended : Unended after) : Unended (lines after first others) := by
  induction others generalizing first with
  | nil => exact first.unended_append (joins first List.mem_cons_self) unended
  | cons second others inductionHypothesis =>
    obtain ⟨here, later⟩ := List.forall_mem_cons.mp joins
    exact first.unended_append here ((inductionHypothesis later).cons (by decide))

open Scan Cursor in
/-- Drafts on lines of their own are read one after the other. Attributes may hold what opens a comment, and
when they do not close it no draft after the first may have an end of a comment. -/
theorem repeats_lines {n : Nat} {c : Cursor} {text : List Char} (deep : 1 < n)
    (joins : ∀ draft ∈ first :: others, ∀ given ∈ draft.attributes?,
      closesComments given.object = true ∨ ∀ other ∈ others, Joins other.text.toList)
    (legible : ∀ draft ∈ first :: others, ∀ given ∈ draft.attributes?, given.Legible n after)
    (before : c.Before text) (token : tokenText text = lines after first others) :
    ∃ statements d, (nextStatement (reader (n + 1))).Repeats c statements d ∧ d.Passed after ∧
      List.Forall₂ Statement.Means statements (first :: others) := by
  have step : ∀ {c : Cursor} {text rest : List Char} (draft : Draft),
      (∀ given ∈ draft.attributes?, given.Legible n rest) → c.Before text →
      tokenText text = draft.text.toList ++ rest → ∃ statement d,
        (nextStatement (reader (n + 1))).Reads c (some statement) d ∧ d.Passed rest ∧ statement.Means draft := by
    intro c text rest draft legible before token
    obtain ⟨statement, d, reads, means, passed⟩ := draft.finds_statement deep legible before token
    have word : (c.tokenAfter 0).lexeme = .word draft.keyword := by
      rw [lexeme_tokenAfter, before.rest, token, toList_text, List.append_assoc]
      obtain ⟨_, spaced⟩ := draft.tail_eq_cons
      rw [spaced]
      exact (word_of_keyword draft.mem_keywords).first_append (namePartLength?_space _)
    exact ⟨statement, d, reads_nextStatement.mpr ⟨by simp [word], reads⟩, passed, means⟩
  induction others generalizing first c text with
  | nil =>
    obtain ⟨statement, d, one, passed, means⟩ :=
      step first (legible first List.mem_cons_self) before token
    exact ⟨[statement], d, .more one .stop, passed, .cons means .nil⟩
  | cons second others inductionHypothesis =>
    obtain ⟨here, later⟩ := List.forall_mem_cons.mp legible
    obtain ⟨statement, d, one, passed, means⟩ := step first (fun given known => by
      obtain ⟨deep, lines, blocks⟩ := here given known
      refine ⟨deep, lines, ?_⟩
      rcases joins first List.mem_cons_self given known with closes | apart
      · exact .inl closes
      · refine blocks.imp_right fun keeps unclosed => ?_
        have unended : Unended ([';'] ++ after) := keeps unclosed
        exact ((unended_lines apart unended.right).cons (by decide)).cons (by decide))
      before token
    have onward : tokenText ('\n' :: lines after second others) = lines after second others := by
      obtain ⟨rest, text⟩ := @lines_eq_append after second others
      rw [tokenText_of_space (by decide), text, second.tokenText_append]
    obtain ⟨statements, e, repeats, ended, meant⟩ := inductionHypothesis
      (fun draft membership given known => (joins draft (List.mem_cons_of_mem _ membership) given known).imp_right
        fun apart other among => apart other (List.mem_cons_of_mem _ among)) later passed.before onward
    exact ⟨statement :: statements, e, .more one repeats, ended, .cons means meant⟩

end Draft

end ImportRedirect.Script
