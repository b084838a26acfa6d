import ImportRedirect.Proofs.Script.Comment
import ImportRedirect.Proofs.Script.Spelling
import ImportRedirect.Surface.Bundled
import Mathlib.Data.List.Nodup

/-!
The bundled names: each is listed once, is read as a name wherever it is written, and ends no comment.
-/

namespace ImportRedirect

namespace Script

variable {text : List Char} {c : Char}

theorem toNat_of_isAlpha (letter : c.isAlpha = true) :
    (65 ≤ c.toNat ∧ c.toNat ≤ 90) ∨ (97 ≤ c.toNat ∧ c.toNat ≤ 122) := by
  have letter : (c.isUpper || c.isLower) = true := letter
  rcases (Bool.or_eq_true _ _).mp letter with upper | lower
  · obtain ⟨least, most⟩ : 65 ≤ c.val ∧ c.val ≤ 90 := of_decide_eq_true upper
    exact .inl ⟨UInt32.le_iff_toNat_le.mp least, UInt32.le_iff_toNat_le.mp most⟩
  · have lower : (decide (97 ≤ c.val) && decide (c.val ≤ 122)) = true := lower
    obtain ⟨least, most⟩ := (Bool.and_eq_true _ _).mp lower
    exact .inr ⟨UInt32.le_iff_toNat_le.mp (of_decide_eq_true least),
      UInt32.le_iff_toNat_le.mp (of_decide_eq_true most)⟩

theorem isNamePart_of_isAlpha (letter : c.isAlpha = true) : isNamePart c = true := by
  have code := toNat_of_isAlpha letter
  have noSpace : isSpace c = false := by
    simp only [isSpace, spaceRanges, Text.Ranges.holds]
    simp
    omega
  have noBreak : c ∉ nameBreaks := by
    intro listed
    have known : nameBreaks.all (!·.isAlpha) = true := by decide +kernel
    have noLetter := List.all_eq_true.mp known c listed
    simp [letter] at noLetter
  simp [isNamePart, noSpace, noBreak]
  omega

theorem namePartsLength_of_letters (letters : text.all Char.isAlpha = true) :
    namePartsLength 0 text = text.length := by
  induction text with
  | nil => rfl
  | cons c rest inductionHypothesis =>
    obtain ⟨letter, later⟩ : c.isAlpha = true ∧ rest.all Char.isAlpha = true := by simpa using letters
    have backslash : c ≠ '\\' := by
      rintro rfl
      simp at letter
    have part : namePartLength? (c :: rest) = some 1 := by
      simp [namePartLength?, isNamePart_of_isAlpha letter, backslash]
    simp [namePartsLength, part, inductionHypothesis later]

theorem word_of_letters {word : String} (some : word ≠ "")
    (letters : word.toList.all Char.isAlpha = true) : Word word := by
  have noDigit : word.toList.head?.any Char.isDigit = false := by
    cases chars : word.toList with
    | nil => rfl
    | cons c rest =>
      obtain ⟨letter, _⟩ : c.isAlpha = true ∧ _ := by simpa [chars] using letters
      have code := toNat_of_isAlpha letter
      simp [Char.isDigit, UInt32.le_iff_toNat_le]
      omega
  have whole : nameLength word.toList = word.toList.length := by
    rw [nameLength, noDigit, if_neg Bool.false_ne_true, namePartsLength_of_letters letters]
  refine Lexeme.first_eq_word_iff.mpr ⟨?_, ?_⟩
  · rw [whole]
    simpa using some
  · rw [whole, List.take_length, String.ofList_toList]

theorem unended_of_letters (letters : text.all Char.isAlpha = true) : Unended text := by
  intro ends
  have star := List.all_eq_true.mp letters '*' (ends.subset List.mem_cons_self)
  exact absurd star (by decide)

end Script

namespace Surface

open Script

variable {seen names : List String}

/-- Names of which none comes twice are all left. -/
theorem distinctNames_of_nodup (nodup : names.Nodup) (fresh : ∀ name ∈ names, name ∉ seen) :
    distinctNames seen names = names := by
  induction names generalizing seen with
  | nil => rfl
  | cons first rest inductionHypothesis =>
    obtain ⟨unlisted, nodup⟩ := List.nodup_cons.mp nodup
    obtain ⟨here, later⟩ := List.forall_mem_cons.mp fresh
    rw [distinctNames, if_neg (by simpa using here), inductionHypothesis nodup]
    intro name membership
    rw [List.mem_cons, not_or]
    refine ⟨?_, later name membership⟩
    rintro rfl
    exact unlisted membership

/-- The name's characters as the digits of one number, which is compared faster than the name. -/
def digits (name : String) : Nat := name.toList.foldl (fun number c => number * 128 + c.toNat) 0

/-- Whether no number comes twice. -/
def distinct : List Nat → Bool
  | [] => true
  | number :: rest => rest.all (!number.beq ·) && distinct rest

theorem nodup_of_distinct {numbers : List Nat} (known : distinct numbers = true) : numbers.Nodup := by
  induction numbers with
  | nil => exact .nil
  | cons number rest inductionHypothesis =>
    obtain ⟨here, later⟩ := (Bool.and_eq_true _ _).mp known
    refine List.nodup_cons.mpr ⟨fun membership => ?_, inductionHypothesis later⟩
    simpa using List.all_eq_true.mp here number membership

theorem nodup_bundledNames : bundledNames.Nodup :=
  .of_map digits (nodup_of_distinct (by decide +kernel))

theorem bundled_eq : bundled [] = ⟨some bundledModule, bundledNames, nodup_bundledNames⟩ := by
  have whole : distinctNames [] bundledNames = bundledNames :=
    distinctNames_of_nodup nodup_bundledNames (by simp)
  simp [bundled, ofNames, whole]

theorem spelled_bundledNames : bundledNames.all (fun name =>
    name != "" && name.toList.all Char.isAlpha && isName name) = true := by decide +kernel

variable {name : String}

theorem spelled_bundled (listed : name ∈ bundledNames) :
    name ≠ "" ∧ name.toList.all Char.isAlpha = true ∧ isName name = true := by
  have spelled := List.all_eq_true.mp spelled_bundledNames name listed
  simpa [and_assoc] using spelled

theorem readable_bundled (listed : name ∈ bundledNames) : Readable name := by
  obtain ⟨some, letters, unreserved⟩ := spelled_bundled listed
  exact ⟨word_of_letters some letters, unreserved⟩

theorem unended_bundled (listed : name ∈ bundledNames) : Unended name.toList :=
  unended_of_letters (spelled_bundled listed).2.1

end Surface

end ImportRedirect
