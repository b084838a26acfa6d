import ImportRedirect.Proofs.Script.Layout
import ImportRedirect.Proofs.Text.Utf8

/-!
Stretches of bytes. Between two places of a text at which characters end, the bytes are those of
some characters.
-/

namespace ImportRedirect

namespace Text

variable {bytes : List UInt8} {start stop : Nat}

/-- The bytes from one place up to another. -/
def stretch (bytes : List UInt8) (start stop : Nat) : List UInt8 :=
  (bytes.drop start).take (stop - start)

theorem stretch_append_drop (ordered : start ≤ stop) :
    stretch bytes start stop ++ bytes.drop stop = bytes.drop start := by
  have split : stop = start + (stop - start) := by omega
  have rest : bytes.drop stop = (bytes.drop start).drop (stop - start) := by
    rw [List.drop_drop, ← split]
  rw [stretch, rest, List.take_append_drop]

end Text

namespace Script

open Text Text.Utf8

variable {text : List Char} {place start stop : Nat}

theorem length_encodeChars (characters : List Char) :
    (encodeChars characters).length = byteLength characters := by
  induction characters with
  | nil => rfl
  | cons character rest inductionHypothesis =>
    have front : encodeChars (character :: rest) =
        String.utf8EncodeChar character ++ encodeChars rest := rfl
    rw [front, List.length_append, String.length_utf8EncodeChar, inductionHypothesis,
      byteLength_cons]

theorem eq_nil_of_byteLength {characters : List Char} (empty : byteLength characters = 0) :
    characters = [] := by
  cases characters with
  | nil => rfl
  | cons character rest =>
    have positive := character.utf8Size_pos
    rw [byteLength_cons] at empty
    omega

/-- Of two beginnings of a text, the one with fewer bytes is a beginning of the other. -/
theorem eq_append_of_le {before after longer others : List Char}
    (split : before ++ after = longer ++ others) (ordered : byteLength before ≤ byteLength longer) :
    ∃ middle, longer = before ++ middle ∧ after = middle ++ others := by
  rcases List.append_eq_append_iff.mp split with ⟨middle, whole, rest⟩ | ⟨middle, whole, rest⟩
  · exact ⟨middle, whole, rest⟩
  · rw [whole, byteLength_append] at ordered
    have none : middle = [] := eq_nil_of_byteLength (by omega)
    exact ⟨[], by simp [whole, none], by simp [rest, none]⟩

theorem boundary_zero (text : List Char) : Boundary text 0 := ⟨[], text, rfl, rfl⟩

namespace Boundary

theorem le_length (boundary : Boundary text place) : place ≤ (encodeChars text).length := by
  obtain ⟨before, after, rfl, rfl⟩ := boundary
  rw [length_encodeChars, byteLength_append]
  omega

theorem drop (boundary : Boundary text place) :
    ∃ characters, (encodeChars text).drop place = encodeChars characters := by
  obtain ⟨before, after, rfl, rfl⟩ := boundary
  refine ⟨after, ?_⟩
  rw [encodeChars_append, ← length_encodeChars, List.drop_left]

/-- Between two boundaries stand the bytes of some characters. -/
theorem stretch (first : Boundary text start) (last : Boundary text stop) (ordered : start ≤ stop) :
    ∃ characters, stretch (encodeChars text) start stop = encodeChars characters := by
  obtain ⟨before, after, split, rfl⟩ := first
  obtain ⟨longer, others, again, rfl⟩ := last
  obtain ⟨middle, rfl, _⟩ := eq_append_of_le (split.symm.trans again) ordered
  refine ⟨middle, ?_⟩
  rw [again, encodeChars_append, encodeChars_append, byteLength_append, Text.stretch,
    ← length_encodeChars, ← length_encodeChars, List.append_assoc, List.drop_left,
    Nat.add_sub_cancel_left, List.take_left]

end Boundary

end Script

end ImportRedirect
