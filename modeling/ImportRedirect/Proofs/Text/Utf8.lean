import ImportRedirect.Text.Utf8

/-!
Decoding undoes encoding, and encoding undoes decoding. Each character is encoded into bytes that the
decoder takes for one of four forms, by the number of bytes, and puts together again.
-/

namespace ImportRedirect.Text.Utf8

variable {offset : Nat} {done : List Char} {a b c d : UInt8} {rest : List UInt8}

attribute [local simp] decodeFrom

theorem isContinuation_iff : isContinuation b = true ↔ 128 ≤ b.toNat ∧ b.toNat < 192 := by
  simp only [isContinuation, Bool.and_eq_true, decide_eq_true_eq, UInt8.le_iff_toNat_le,
    UInt8.reduceToNat]
  omega

theorem toNat_ofNat {n : Nat} (small : n < 256) : (UInt8.ofNat n).toNat = n :=
  UInt8.toNat_ofNat_of_lt' small

theorem not_lt_of_toNat (least : b.toNat ≤ a.toNat) : ¬ a < b := by
  rw [UInt8.lt_iff_toNat_lt]
  omega

theorem toNat_of_not_lt (least : ¬ a < b) : b.toNat ≤ a.toNat :=
  Nat.not_lt.mp (mt UInt8.lt_iff_toNat_lt.mpr least)

/-- A continuation byte may follow a lead byte unless that is the one its half of the range excludes. -/
theorem continues_iff {limit lowLead highLead : UInt8} :
    (isContinuation b && !(if b < limit then a == lowLead else a == highLead)) = true ↔
      128 ≤ b.toNat ∧ b.toNat < 192 ∧ (b.toNat < limit.toNat → a.toNat ≠ lowLead.toNat) ∧
        (limit.toNat ≤ b.toNat → a.toNat ≠ highLead.toNat) := by
  rw [Bool.and_eq_true, isContinuation_iff, Bool.not_eq_true', and_assoc]
  refine and_congr_right fun _ => and_congr_right fun _ => ?_
  split
  · next small =>
    have small := UInt8.lt_iff_toNat_lt.mp small
    rw [beq_eq_false_iff_ne, ne_eq, ← UInt8.toNat_inj]
    exact ⟨fun apart => ⟨fun _ => apart, fun large => absurd small (Nat.not_lt.mpr large)⟩,
      fun both => both.1 small⟩
  · next large =>
    have large := toNat_of_not_lt large
    rw [beq_eq_false_iff_ne, ne_eq, ← UInt8.toNat_inj]
    exact ⟨fun apart => ⟨fun small => absurd small (Nat.not_lt.mpr large), fun _ => apart⟩,
      fun both => both.2 large⟩

theorem secondOfThree_iff : secondOfThree a b = true ↔ 128 ≤ b.toNat ∧ b.toNat < 192 ∧
    (b.toNat < 160 → a.toNat ≠ 224) ∧ (160 ≤ b.toNat → a.toNat ≠ 237) :=
  continues_iff

theorem secondOfFour_iff : secondOfFour a b = true ↔ 128 ≤ b.toNat ∧ b.toNat < 192 ∧
    (b.toNat < 144 → a.toNat ≠ 240) ∧ (144 ≤ b.toNat → a.toNat ≠ 244) :=
  continues_iff

theorem decodeFrom_one (low : a.toNat < 128) :
    decodeFrom offset done (a :: rest) =
      decodeFrom (offset + 1) (Char.ofNat a.toNat :: done) rest := by
  have small : a < 0x80 := UInt8.lt_iff_toNat_lt.mpr low
  rw [decodeFrom.eq_def]
  simp only [small, if_true]

theorem decodeFrom_two (least : 194 ≤ a.toNat) (most : a.toNat < 224)
    (second : isContinuation b = true) :
    decodeFrom offset done (a :: b :: rest) =
      decodeFrom (offset + 2) (assemble (a.toNat % 32) [b] :: done) rest := by
  have notOne : ¬ a < 0x80 := not_lt_of_toNat (Nat.le_trans (by decide) least)
  have notLow : ¬ a < 0xC2 := not_lt_of_toNat least
  have two : a < 0xE0 := UInt8.lt_iff_toNat_lt.mpr most
  rw [decodeFrom.eq_def]
  simp only [notOne, notLow, two, if_true, if_false, second]

theorem decodeFrom_three (least : 224 ≤ a.toNat) (most : a.toNat < 240)
    (second : secondOfThree a b = true) (third : isContinuation c = true) :
    decodeFrom offset done (a :: b :: c :: rest) =
      decodeFrom (offset + 3) (assemble (a.toNat % 16) [b, c] :: done) rest := by
  have notOne : ¬ a < 0x80 := not_lt_of_toNat (Nat.le_trans (by decide) least)
  have notLow : ¬ a < 0xC2 := not_lt_of_toNat (Nat.le_trans (by decide) least)
  have notTwo : ¬ a < 0xE0 := not_lt_of_toNat least
  have three : a < 0xF0 := UInt8.lt_iff_toNat_lt.mpr most
  rw [decodeFrom.eq_def]
  simp only [notOne, notLow, notTwo, three, if_true, if_false, second, third, Bool.not_true,
    Bool.false_eq_true]

theorem decodeFrom_four (least : 240 ≤ a.toNat) (most : a.toNat < 245)
    (second : secondOfFour a b = true) (third : isContinuation c = true)
    (fourth : isContinuation d = true) :
    decodeFrom offset done (a :: b :: c :: d :: rest) =
      decodeFrom (offset + 4) (assemble (a.toNat % 8) [b, c, d] :: done) rest := by
  have notOne : ¬ a < 0x80 := not_lt_of_toNat (Nat.le_trans (by decide) least)
  have notLow : ¬ a < 0xC2 := not_lt_of_toNat (Nat.le_trans (by decide) least)
  have notTwo : ¬ a < 0xE0 := not_lt_of_toNat (Nat.le_trans (by decide) least)
  have notThree : ¬ a < 0xF0 := not_lt_of_toNat least
  have four : a < 0xF5 := UInt8.lt_iff_toNat_lt.mpr most
  rw [decodeFrom.eq_def]
  simp only [notOne, notLow, notTwo, notThree, four, if_true, if_false, second, third, fourth,
    Bool.not_true, Bool.false_eq_true]

/-- The code points of characters leave out the surrogates. -/
theorem toNat_valid (character : Char) : character.toNat < 55296 ∨
    57343 < character.toNat ∧ character.toNat < 1114112 := character.valid

theorem decodeFrom_char (character : Char) :
    decodeFrom offset done (String.utf8EncodeChar character ++ rest) =
      decodeFrom (offset + character.utf8Size) (character :: done) rest := by
  have valid := toNat_valid character
  have point : character.val.toNat = character.toNat := rfl
  have again : ∀ n, n = character.toNat → Char.ofNat n = character := by
    rintro n rfl
    exact Char.ofNat_toNat character
  rw [← String.length_utf8EncodeChar]
  unfold String.utf8EncodeChar
  dsimp only
  rw [point]
  -- By the number of bytes: each byte has the bits that the decoder takes from it.
  split
  · next one =>
    have first : (UInt8.ofNat character.toNat).toNat = character.toNat := toNat_ofNat (by omega)
    rw [List.singleton_append, decodeFrom_one (by omega), first, again _ rfl]
    rfl
  · next notOne =>
    split
    · next two =>
      have first : (UInt8.ofNat (character.toNat / 64 % 32 + 192)).toNat =
          character.toNat / 64 % 32 + 192 := toNat_ofNat (by omega)
      have second : (UInt8.ofNat (character.toNat % 64 + 128)).toNat =
          character.toNat % 64 + 128 := toNat_ofNat (by omega)
      rw [List.cons_append, List.cons_append, List.nil_append,
        decodeFrom_two (by omega) (by omega) (isContinuation_iff.mpr (by omega)), assemble,
        List.foldl_cons, List.foldl_nil, again _ (by omega)]
      rfl
    · next notTwo =>
      have tail := fun n => toNat_ofNat (n := n % 64 + 128) (by omega)
      split
      · next three =>
        have first : (UInt8.ofNat (character.toNat / 4096 % 16 + 224)).toNat =
            character.toNat / 4096 % 16 + 224 := toNat_ofNat (by omega)
        have second := tail (character.toNat / 64)
        have third := tail character.toNat
        rw [List.cons_append, List.cons_append, List.cons_append, List.nil_append,
          decodeFrom_three (by omega) (by omega)
            (secondOfThree_iff.mpr (by omega))
            (isContinuation_iff.mpr (by omega)),
          assemble, List.foldl_cons, List.foldl_cons, List.foldl_nil, again _ (by omega)]
        rfl
      · next notThree =>
        have first : (UInt8.ofNat (character.toNat / 262144 % 8 + 240)).toNat =
            character.toNat / 262144 % 8 + 240 := toNat_ofNat (by omega)
        have second := tail (character.toNat / 4096)
        have third := tail (character.toNat / 64)
        have fourth := tail character.toNat
        rw [List.cons_append, List.cons_append, List.cons_append, List.cons_append,
          List.nil_append, decodeFrom_four (by omega) (by omega)
            (secondOfFour_iff.mpr (by omega))
            (isContinuation_iff.mpr (by omega)) (isContinuation_iff.mpr (by omega)),
          assemble, List.foldl_cons, List.foldl_cons, List.foldl_cons, List.foldl_nil,
          again _ (by omega)]
        rfl

theorem decodeFrom_encodeChars (characters : List Char) :
    decodeFrom offset done (encodeChars characters) = .ok (done.reverse ++ characters) := by
  induction characters generalizing offset done with
  | nil => simp [encodeChars]
  | cons character rest inductionHypothesis =>
    have front : encodeChars (character :: rest) =
        String.utf8EncodeChar character ++ encodeChars rest := rfl
    rw [front, decodeFrom_char, inductionHypothesis]
    simp

/-- Decoding gives back the text that was encoded. -/
theorem decode_encodeChars (characters : List Char) :
    decode (encodeChars characters) = .ok (String.ofList characters) := by
  rw [decode, decodeFrom_encodeChars]
  rfl

theorem encode_injective {first second : String} (same : encode first = encode second) :
    first = second := by
  have decoded := decode_encodeChars first.toList
  have again := decode_encodeChars second.toList
  rw [encode, encode] at same
  rw [same, again, Except.ok.injEq, String.ofList_toList, String.ofList_toList] at decoded
  exact decoded.symm

/-- What the encoder reads of the character with a code point. -/
theorem point_ofNat {n : Nat} (valid : n.isValidChar) : (Char.ofNat n).val.toNat = n := by
  rw [Char.ofNat, dif_pos valid]
  rfl

theorem ofNat_eq {n : Nat} (same : n = a.toNat) : UInt8.ofNat n = a := by
  rw [same, UInt8.ofNat_toNat]

theorem encodeChar_one (low : a.toNat < 128) :
    String.utf8EncodeChar (Char.ofNat a.toNat) = [a] := by
  unfold String.utf8EncodeChar
  rw [point_ofNat (.inl (by omega))]
  dsimp only
  rw [if_pos (by omega), ofNat_eq rfl]

theorem encodeChar_two (least : 194 ≤ a.toNat) (most : a.toNat < 224)
    (second : isContinuation b = true) :
    String.utf8EncodeChar (assemble (a.toNat % 32) [b]) = [a, b] := by
  rw [isContinuation_iff] at second
  unfold String.utf8EncodeChar
  rw [assemble, List.foldl_cons, List.foldl_nil, point_ofNat (.inl (by omega))]
  dsimp only
  rw [if_neg (by omega), if_pos (by omega)]
  simp only [List.cons.injEq, and_true]
  exact ⟨ofNat_eq (by omega), ofNat_eq (by omega)⟩

theorem encodeChar_three (least : 224 ≤ a.toNat) (most : a.toNat < 240)
    (second : secondOfThree a b = true) (third : isContinuation c = true) :
    String.utf8EncodeChar (assemble (a.toNat % 16) [b, c]) = [a, b, c] := by
  rw [isContinuation_iff] at third
  obtain ⟨leastSecond, mostSecond, low, high⟩ := secondOfThree_iff.mp second
  unfold String.utf8EncodeChar
  rw [assemble, List.foldl_cons, List.foldl_cons, List.foldl_nil,
    point_ofNat (by unfold Nat.isValidChar; omega)]
  dsimp only
  rw [if_neg (by omega), if_neg (by omega), if_pos (by omega)]
  simp only [List.cons.injEq, and_true]
  exact ⟨ofNat_eq (by omega), ofNat_eq (by omega), ofNat_eq (by omega)⟩

theorem encodeChar_four (least : 240 ≤ a.toNat) (most : a.toNat < 245)
    (second : secondOfFour a b = true) (third : isContinuation c = true)
    (fourth : isContinuation d = true) :
    String.utf8EncodeChar (assemble (a.toNat % 8) [b, c, d]) = [a, b, c, d] := by
  rw [isContinuation_iff] at third fourth
  obtain ⟨leastSecond, mostSecond, low, high⟩ := secondOfFour_iff.mp second
  unfold String.utf8EncodeChar
  rw [assemble, List.foldl_cons, List.foldl_cons, List.foldl_cons, List.foldl_nil,
    point_ofNat (.inr (by omega))]
  dsimp only
  rw [if_neg (by omega), if_neg (by omega), if_neg (by omega)]
  simp only [List.cons.injEq, and_true]
  exact ⟨ofNat_eq (by omega), ofNat_eq (by omega), ofNat_eq (by omega), ofNat_eq (by omega)⟩

theorem encodeChars_append (front rest : List Char) :
    encodeChars (front ++ rest) = encodeChars front ++ encodeChars rest :=
  List.flatMap_append

theorem encodeChars_reverse_cons {character : Char} {bytes : List UInt8}
    (form : String.utf8EncodeChar character = bytes) :
    encodeChars (character :: done).reverse = encodeChars done.reverse ++ bytes := by
  rw [List.reverse_cons, encodeChars_append, ← form]
  simp [encodeChars]

/-- The characters that bytes decode to are encoded into these bytes: no character has two forms. -/
theorem encodeChars_of_decodeFrom {bytes : List UInt8} {characters : List Char}
    (decoded : decodeFrom offset done bytes = .ok characters) :
    encodeChars characters = encodeChars done.reverse ++ bytes := by
  -- Most cases are defects; in each of the others one character is read.
  fun_induction decodeFrom offset done bytes <;> try cases decoded
  case case1 => simp
  case case2 one inductionHypothesis =>
    rw [inductionHypothesis decoded, encodeChars_reverse_cons (encodeChar_one one)]
    simp
  case case5 notLow two _ _ second inductionHypothesis =>
    rw [inductionHypothesis decoded,
      encodeChars_reverse_cons (encodeChar_two (toNat_of_not_lt notLow) two second)]
    simp
  case case10 notTwo three _ second _ _ third inductionHypothesis =>
    rw [inductionHypothesis decoded,
      encodeChars_reverse_cons
        (encodeChar_three (toNat_of_not_lt notTwo) three (by simpa using second) third)]
    simp
  case case17 notThree four _ second _ third _ _ fourth inductionHypothesis =>
    rw [inductionHypothesis decoded,
      encodeChars_reverse_cons
        (encodeChar_four (toNat_of_not_lt notThree) four (by simpa using second)
          (by simpa using third) fourth)]
    simp

/-- Encoding gives back the bytes that were decoded. -/
theorem encode_of_decode {bytes : List UInt8} {text : String} (decoded : decode bytes = .ok text) :
    encode text = bytes := by
  unfold decode at decoded
  cases read : decodeFrom 0 [] bytes with
  | error defect => simp [read, Except.map] at decoded
  | ok characters =>
    rw [read] at decoded
    rw [← Except.ok.inj decoded, encode, String.toList_ofList, encodeChars_of_decodeFrom read]
    rfl

end ImportRedirect.Text.Utf8
