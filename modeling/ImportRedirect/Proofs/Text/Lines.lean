import ImportRedirect.Proofs.Text.Utf8
import ImportRedirect.Sources

/-!
What unifying line ends does to a text. It takes every carriage return out and changes nothing else,
so the text read from a file has the bytes of the file exactly when no carriage return is among them.
-/

namespace ImportRedirect

namespace Text

theorem unifyLinesFrom_of_not_mem {done characters : List Char} (without : '\r' ∉ characters) :
    unifyLinesFrom done characters = done.reverse ++ characters := by
  fun_induction unifyLinesFrom done characters
  case case1 => simp
  case case2 | case3 => simp at without
  case case4 first rest _ _ inductionHypothesis =>
    rw [inductionHypothesis fun membership => without (List.mem_cons_of_mem _ membership)]
    simp

theorem mem_unifyLinesFrom {done characters : List Char} :
    '\r' ∈ unifyLinesFrom done characters ↔ '\r' ∈ done := by
  fun_induction unifyLinesFrom done characters
  case case1 => simp
  case case2 inductionHypothesis | case3 inductionHypothesis => simp [inductionHypothesis]
  case case4 first rest _ notReturn inductionHypothesis =>
    rw [inductionHypothesis, List.mem_cons, or_iff_right]
    exact fun isReturn => notReturn isReturn.symm

/-- A text has unified line ends already exactly when it has no carriage return. -/
theorem unifyLines_eq_self_iff {text : String} :
    unifyLines text = text ↔ '\r' ∉ text.toList := by
  constructor
  · intro same membership
    rw [← same, unifyLines, String.toList_ofList, mem_unifyLinesFrom] at membership
    simp at membership
  · intro without
    rw [unifyLines, unifyLinesFrom_of_not_mem without]
    simp

/-- The byte of a carriage return stands in the form of no other character. -/
theorem mem_utf8EncodeChar {character : Char} :
    (13 : UInt8) ∈ String.utf8EncodeChar character ↔ character = '\r' := by
  have byte : ∀ {n}, (13 : UInt8) = UInt8.ofNat n → n < 256 → n = 13 := by
    intro n same small
    rw [← Utf8.toNat_ofNat small, ← same]
    rfl
  have apart : ∀ {n}, 13 < n → n < 256 → (13 : UInt8) ≠ UInt8.ofNat n := by
    intro n large small same
    exact absurd (byte same small) (Nat.ne_of_gt large)
  constructor
  · intro membership
    unfold String.utf8EncodeChar at membership
    simp only at membership
    split at membership
    · next one =>
      have point := byte (List.mem_singleton.mp membership) (by omega)
      exact Char.ext (UInt32.toNat_inj.mp point)
    · -- Every byte of a longer form is at least 128.
      exfalso
      split at membership
      · simp only [List.mem_cons, List.not_mem_nil, or_false] at membership
        rcases membership with same | same <;> exact apart (by omega) (by omega) same
      · split at membership
        · simp only [List.mem_cons, List.not_mem_nil, or_false] at membership
          rcases membership with same | same | same <;> exact apart (by omega) (by omega) same
        · simp only [List.mem_cons, List.not_mem_nil, or_false] at membership
          rcases membership with same | same | same | same <;>
            exact apart (by omega) (by omega) same
  · rintro rfl
    decide

theorem mem_encode {text : String} : (13 : UInt8) ∈ Utf8.encode text ↔ '\r' ∈ text.toList := by
  simp only [Utf8.encode, Utf8.encodeChars, List.mem_flatMap, mem_utf8EncodeChar, exists_eq_right]

end Text

theorem Sources.decode_encode_of_not_mem {text : String} (without : '\r' ∉ text.toList) :
    decode (Text.Utf8.encode text) = .ok text := by
  rw [decode, Text.Utf8.encode, Text.Utf8.decode_encodeChars, Except.map, String.ofList_toList,
    Text.unifyLines_eq_self_iff.mpr without]

/-- The text of a source is made of the bytes of the file unless one of these is a carriage return. -/
theorem Sources.encode_eq_iff {content : List UInt8} {text : String}
    (decoded : decode content = .ok text) :
    Text.Utf8.encode text = content ↔ (13 : UInt8) ∉ content := by
  unfold decode at decoded
  cases read : Text.Utf8.decode content with
  | error defect => simp [read, Except.map] at decoded
  | ok original =>
    have encoded := Text.Utf8.encode_of_decode read
    simp only [read, Except.map, Except.ok.injEq] at decoded
    rw [← decoded, ← encoded, Text.mem_encode, ← Text.unifyLines_eq_self_iff]
    constructor
    · exact fun same => Text.Utf8.encode_injective same
    · exact congrArg _

end ImportRedirect
