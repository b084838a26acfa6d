import ImportRedirect.Proofs.Script.Parting
import Mathlib.Data.List.Find

/-!
Tokens before a border: the first token of a text is the same in both continuations unless it is a
name that goes on beyond the border, and so are the lengths of numbers, quoted texts, templates and
regular expressions that end before it.
-/

namespace ImportRedirect.Script

variable {old new : List Char}

section Runs

theorem takeWhile_append_of_within (meets : Meets old new) {p : Char → Bool} {front : List Char}
    (within : ((front ++ old).takeWhile p).length ≤ front.length) :
    (front ++ new).takeWhile p = (front ++ old).takeWhile p := by
  induction front with
  | nil =>
    rcases meets.nil_or_cons with ⟨rfl, rfl⟩ | ⟨letter, _, rest, other, rfl, rfl⟩
    · rfl
    · cases holds : p letter <;> simp [holds] at within ⊢
  | cons c front inductionHypothesis =>
    cases holds : p c with
    | false => simp [holds]
    | true =>
      simp only [List.cons_append, List.takeWhile_cons, holds, if_true, List.length_cons] at within ⊢
      rw [inductionHypothesis (by omega)]

theorem isPrefixOf_eq_false {mark head rest : List Char}
    (differ : (mark.zip head).any (fun pair => pair.1 != pair.2) = true) :
    mark.isPrefixOf (head ++ rest) = false := by
  induction mark generalizing head with
  | nil => simp at differ
  | cons c mark inductionHypothesis =>
    cases head with
    | nil => simp at differ
    | cons d head =>
      rw [List.zip_cons_cons, List.any_cons, Bool.or_eq_true] at differ
      rcases differ with differ | differ
      · have apart : (c == d) = false := by simpa using differ
        rw [List.cons_append, List.isPrefixOf, apart, Bool.false_and]
      · rw [List.cons_append, List.isPrefixOf, inductionHypothesis differ, Bool.and_false]

/-- No token of a border goes on with what is left of this text. -/
def isForeign : List Char → Bool
  | [] => true
  | c :: mark =>
    (partingTokens.all fun head => ((c :: mark).zip head).any fun pair => pair.1 != pair.2) &&
      isForeign mark

/-- What no token of a border goes on with lies before the border as a whole. -/
theorem isPrefixOf_append (meets : Meets old new) {mark text : List Char}
    (foreign : isForeign mark = true) (text_eq : text = old ∨ text = new) (front : List Char) :
    mark.isPrefixOf (front ++ text) = mark.isPrefixOf front := by
  induction mark generalizing front with
  | nil => simp [List.isPrefixOf]
  | cons c mark inductionHypothesis =>
    rw [isForeign, Bool.and_eq_true, List.all_eq_true] at foreign
    cases front with
    | cons d front =>
      simp only [List.cons_append, List.isPrefixOf]
      rw [inductionHypothesis foreign.2]
    | nil =>
      cases meets with
      | finish => rcases text_eq with rfl | rfl <;> rfl
      | @token head _ _ known =>
        have differ := foreign.1 head known
        rw [List.nil_append]
        rcases text_eq with rfl | rfl <;> exact isPrefixOf_eq_false differ

end Runs

section First

theorem namePartsLength_le (skip : Nat) (text : List Char) :
    namePartsLength skip text ≤ text.length := by
  induction text generalizing skip with
  | nil => simp [namePartsLength]
  | cons c rest inductionHypothesis =>
    unfold namePartsLength
    split
    · exact Nat.succ_le_succ (inductionHypothesis _)
    · split
      · exact Nat.succ_le_succ (inductionHypothesis _)
      · exact Nat.zero_le _

theorem nameLength_le (text : List Char) : nameLength text ≤ text.length := by
  unfold nameLength
  split
  · exact Nat.zero_le _
  · exact namePartsLength_le 0 text

/-- Characters of a name, after which none goes on, are a name. -/
theorem namePartsLength_of_word {word rest : List Char}
    (parts : ∀ c ∈ word, isNamePart c = true ∧ c ≠ '\\') (ends : namePartLength? rest = none) :
    namePartsLength 0 (word ++ rest) = word.length := by
  induction word with
  | nil =>
    cases rest with
    | nil => rfl
    | cons c rest => simp [namePartsLength, ends]
  | cons c word inductionHypothesis =>
    obtain ⟨part, plain⟩ := parts c (by simp)
    have one : namePartLength? (c :: (word ++ rest)) = some 1 := by
      rw [namePartLength?, if_pos part]
      exact fun _ same => absurd same plain
    rw [List.cons_append, namePartsLength, one]
    dsimp only
    rw [inductionHypothesis fun c membership => parts c (by simp [membership])]
    rfl

namespace Lexeme

/-- Tokens that may be looked past before it is known whether they are read as such. -/
def chained : Lexeme → Bool
  | .word _ | .privateName _ => true
  | .mark text => text == "*"
  | .finish | .number | .quote _ => false

theorem first_of_word {word rest : List Char} (nonempty : word ≠ [])
    (start : word.head?.any Char.isDigit = false)
    (parts : ∀ c ∈ word, isNamePart c = true ∧ c ≠ '\\') (ends : namePartLength? rest = none) :
    Lexeme.first (word ++ rest) = .word (String.ofList word) := by
  cases word with
  | nil => exact absurd rfl nonempty
  | cons c word =>
    have name : nameLength (c :: (word ++ rest)) = word.length + 1 := by
      have digit : (c :: (word ++ rest)).head?.any Char.isDigit = false := start
      rw [nameLength, digit, if_neg (by simp), ← List.cons_append, namePartsLength_of_word parts ends]
      rfl
    simp [Lexeme.first, name]

theorem first_of_hash {rest : List Char} (name : nameLength rest ≠ 0) :
    Lexeme.first ('#' :: rest) = .privateName (nameLength rest + 1) := by
  have breaks : isNamePart '#' = false := by decide
  have none : nameLength ('#' :: rest) = 0 := by
    simp [nameLength, namePartsLength, namePartLength?, breaks]
  simp [Lexeme.first, none, name]

theorem first_of_parting {head rest : List Char} (known : head ∈ partingTokens)
    (word : head ≠ ['\x7d']) (ends : namePartLength? rest = none) :
    Lexeme.first (head ++ rest) = .word (String.ofList head) := by
  have words : ∀ head ∈ partingTokens, head ≠ ['\x7d'] → head ≠ [] ∧
      head.head?.any Char.isDigit = false ∧ ∀ c ∈ head, isNamePart c = true ∧ c ≠ '\\' := by
    have each : partingTokens.all (fun head => head == ['\x7d'] || (head != [] &&
        !head.head?.any Char.isDigit && head.all fun c => isNamePart c && c != '\\')) = true := by
      decide
    intro head known word
    simpa [word, and_assoc] using List.all_eq_true.mp each head known
  obtain ⟨nonempty, start, parts⟩ := words head known word
  exact first_of_word nonempty start parts ends

/-- The tokens at a border. -/
theorem first_meets (meets : Meets old new) : Lexeme.first new = Lexeme.first old := by
  cases meets with
  | finish => rfl
  | @token head rest other known completes =>
    by_cases brace : head = ['\x7d']
    · subst brace
      have breaks : isNamePart '\x7d' = false := by decide
      simp [Lexeme.first, nameLength, namePartsLength, namePartLength?, breaks, longMarks]
    · obtain ⟨here, there⟩ := completes brace
      rw [first_of_parting known brace here.ends, first_of_parting known brace there.ends]

theorem foreign_longMarks : ∀ mark ∈ longMarks, isForeign mark = true := by decide

/-- A token before the border is the same in both texts, unless it is a name that goes on beyond the
border. -/
theorem first_append (meets : Meets old new) {front : List Char} (before : front ≠ [])
    (within : (Lexeme.first (front ++ old)).chained = true →
      (Lexeme.first (front ++ old)).length ≤ front.length) :
    Lexeme.first (front ++ new) = Lexeme.first (front ++ old) := by
  cases front with
  | nil => exact absurd rfl before
  | cons c front =>
    have names : nameLength (c :: front ++ new) = nameLength (c :: front ++ old) := by
      apply nameLength_append meets
      by_cases none : nameLength (c :: front ++ old) = 0
      · omega
      · have word : Lexeme.first (c :: front ++ old) =
            .word (String.ofList ((c :: front ++ old).take (nameLength (c :: front ++ old)))) := by
          simp only [List.cons_append] at none ⊢
          simp [Lexeme.first, none]
        have bound := nameLength_le (c :: front ++ old)
        rw [word] at within
        have within := within rfl
        simp only [Lexeme.length, String.length_ofList, List.length_take] at within
        omega
    have hashes : c = '#' → nameLength (front ++ new) = nameLength (front ++ old) := by
      rintro rfl
      apply nameLength_append meets
      by_cases none : nameLength (front ++ old) = 0
      · omega
      · rw [List.cons_append, first_of_hash none] at within
        have within := within rfl
        simp only [Lexeme.length, List.length_cons] at within
        omega
    have digit := meets.head?_append front
    simp only [List.cons_append] at names within ⊢
    simp only [Lexeme.first, names, ← digit] at within ⊢
    split
    · next name =>
      simp only [name, if_true] at within
      have within := within rfl
      have bound := nameLength_le (c :: (front ++ old))
      simp only [Lexeme.length, String.length_ofList, List.length_take, List.length_cons] at within bound
      obtain ⟨length, size⟩ : ∃ length, nameLength (c :: (front ++ old)) = length + 1 :=
        ⟨nameLength (c :: (front ++ old)) - 1, by simp at name; omega⟩
      have short : length ≤ front.length := by omega
      simp [size, List.take_append_of_le_length short]
    · next name =>
      split
      · rfl
      · split
        · rfl
        · next quote =>
          have privates : (c == '#' && nameLength (front ++ new) != 0) =
              (c == '#' && nameLength (front ++ old) != 0) := by
            by_cases hash : c = '#'
            · rw [hashes hash]
            · rw [beq_eq_false_iff_ne.mpr hash, Bool.false_and, Bool.false_and]
          rw [privates]
          by_cases hash : (c == '#' && nameLength (front ++ old) != 0) = true
          · rw [if_pos hash, if_pos hash, hashes (by simp at hash; exact hash.1)]
          · rw [if_neg hash, if_neg hash]
            have marks : longMarks.find? (·.isPrefixOf (c :: (front ++ new))) =
                longMarks.find? (·.isPrefixOf (c :: (front ++ old))) := by
              apply List.find?_congr
              intro mark among
              have foreign := foreign_longMarks mark among
              exact (isPrefixOf_append meets foreign (.inr rfl) (c :: front)).trans
                (isPrefixOf_append meets foreign (.inl rfl) (c :: front)).symm
            rw [marks]
            split
            · next found =>
              -- The second character of this mark stands before the border, so what comes after it
              -- does as well, or begins there.
              have begins := List.find?_some found
              cases front with
              | nil =>
                rcases meets.nil_or_cons with ⟨rfl, rfl⟩ | ⟨letter, among, rest, other, rfl, rfl⟩
                · simp [List.isPrefixOf] at begins
                · have letters : ∀ c ∈ partingLetters, c ≠ '.' :=
                    forall_partingLetters.mpr (by decide)
                  simp [List.isPrefixOf, (letters letter among).symm] at begins
              | cons d front =>
                have next := meets.head?_append front
                simp only [List.cons_append, List.drop_succ_cons, List.drop_zero, next]
            · rfl
            · rfl

end Lexeme

end First

end ImportRedirect.Script
