import ImportRedirect.Proofs.Script.Border
import ImportRedirect.Proofs.Script.Parting.Length

/-!
Words and quoted texts by themselves. What was read as one in a script is one wherever it is written,
as long as nothing comes after a word that would carry it on.
-/

namespace ImportRedirect.Script

section Cuts

variable {front old new : List Char}

theorem takeWhile_append_cut {p : Char → Bool}
    (stops : ((front ++ old).takeWhile p).length + 1 ≤ front.length) :
    (front ++ new).takeWhile p = (front ++ old).takeWhile p ∧
      ((front ++ new).drop ((front ++ old).takeWhile p).length).head? =
        ((front ++ old).drop ((front ++ old).takeWhile p).length).head? := by
  induction front with
  | nil => simp at stops
  | cons c front inductionHypothesis =>
    cases holds : p c with
    | false => simp [holds]
    | true =>
      simp only [List.cons_append, List.takeWhile_cons, holds, if_true, List.length_cons] at stops ⊢
      obtain ⟨same, next⟩ := inductionHypothesis (by omega)
      simpa [same] using next

theorem codePointLength?_cut {length : Nat} (found : codePointLength? (front ++ old) = some length)
    (within : length ≤ front.length) : codePointLength? (front ++ new) = some length := by
  have bare : ∀ text : List Char, text.head? ≠ some '\x7b' → codePointLength? text =
      if (text.take 4).length == 4 && (text.take 4).all isHexDigit then some 4 else none := by
    intro text plain
    rw [codePointLength?]
    exact fun rest same => plain (by rw [same]; rfl)
  cases front with
  | nil =>
    obtain rfl : length = 0 := by simpa using within
    unfold codePointLength? at found
    split at found
    · simp at found
    · dsimp only at found
      split at found <;> simp at found
  | cons c front =>
    by_cases brace : c = '\x7b'
    · subst brace
      simp only [List.cons_append, codePointLength?, bracedCodeLength?, beq_iff_eq,
        Option.map_eq_some_iff, List.length_cons] at found within ⊢
      obtain ⟨digits, closed, rfl⟩ := found
      split at closed
      · cases closed
      · next some =>
        split at closed
        · next brace =>
          obtain rfl := Option.some.inj closed
          obtain ⟨same, next⟩ := @takeWhile_append_cut front old new isHexDigit (by omega)
          rw [same, if_neg some, next, if_pos brace]
          exact ⟨_, rfl, rfl⟩
        · cases closed
    · rw [bare _ (by simpa using brace)] at found ⊢
      split at found
      · next digits =>
        obtain rfl := Option.some.inj found
        rw [List.take_append_of_le_length within] at digits ⊢
        rw [if_pos digits]
      · cases found

theorem namePartLength?_cut {length : Nat} (found : namePartLength? (front ++ old) = some length)
    (before : front ≠ []) (within : length ≤ front.length) :
    namePartLength? (front ++ new) = some length := by
  have plain : ∀ c rest, c ≠ '\\' → namePartLength? (c :: rest) =
      if isNamePart c then some 1 else none := by
    intro c rest slash
    rw [namePartLength?]
    exact fun _ same => absurd same slash
  have noPart : isNamePart '\\' = false := by decide
  cases front with
  | nil => exact absurd rfl before
  | cons c front =>
    by_cases slash : c = '\\'
    · subst slash
      cases front with
      | nil =>
        rw [List.cons_append, List.nil_append] at found
        unfold namePartLength? at found
        split at found
        · obtain ⟨code, _, rfl⟩ := Option.map_eq_some_iff.mp found
          simp at within
        · next same =>
          obtain ⟨rfl, _⟩ := List.cons.inj same
          simp [noPart] at found
        · cases found
      | cons d front =>
        by_cases escape : d = 'u'
        · subst escape
          simp only [List.cons_append, namePartLength?, Option.map_eq_some_iff] at found ⊢
          obtain ⟨code, measured, rfl⟩ := found
          simp only [List.length_cons] at within
          exact ⟨code, codePointLength?_cut measured (by omega), rfl⟩
        · rw [List.cons_append, List.cons_append, namePartLength?] at found
          · simp [noPart] at found
          · exact fun _ _ same => escape (List.cons.inj same).1
    · rw [List.cons_append, plain c _ slash] at found ⊢
      exact found

theorem namePartLength?_le {text : List Char} {length : Nat}
    (found : namePartLength? text = some length) : length ≤ text.length := by
  unfold namePartLength? at found
  split at found
  · obtain ⟨code, measured, rfl⟩ := Option.map_eq_some_iff.mp found
    simp only [List.length_cons, Nat.add_le_add_iff_right]
    unfold codePointLength? at measured
    split at measured
    · next rest =>
      obtain ⟨digits, closed, rfl⟩ := Option.map_eq_some_iff.mp measured
      simp only [bracedCodeLength?, beq_iff_eq] at closed
      split at closed
      · cases closed
      · split at closed
        · next brace =>
          obtain rfl := Option.some.inj closed
          have left : (rest.drop (rest.takeWhile isHexDigit).length) ≠ [] := by
            intro none
            simp [none] at brace
          have counted := List.length_pos_iff.mpr left
          rw [List.length_drop] at counted
          simp only [List.length_cons]
          omega
        · cases closed
    · dsimp only at measured
      split at measured
      · next digits =>
        obtain rfl := Option.some.inj measured
        rw [Bool.and_eq_true, beq_iff_eq, List.length_take] at digits
        omega
      · cases measured
  · split at found
    · obtain rfl := Option.some.inj found
      simp
    · cases found
  · cases found

theorem le_namePartsLength {skip : Nat} {text : List Char} (within : skip ≤ text.length) :
    skip ≤ namePartsLength skip text := by
  induction text generalizing skip with
  | nil =>
    obtain rfl : skip = 0 := by simpa using within
    exact Nat.zero_le _
  | cons c rest inductionHypothesis =>
    cases skip with
    | zero => exact Nat.zero_le _
    | succ skip =>
      simp only [List.length_cons] at within
      simp only [namePartsLength]
      exact Nat.succ_le_succ (inductionHypothesis (by omega))

theorem namePartsLength_cut {skip : Nat} (within : skip ≤ front.length)
    (whole : namePartsLength skip (front ++ old) = front.length)
    (ends : namePartLength? new = none) :
    namePartsLength skip (front ++ new) = front.length := by
  induction front generalizing skip with
  | nil =>
    obtain rfl : skip = 0 := by simpa using within
    cases new with
    | nil => rfl
    | cons c new => simp [namePartsLength, ends]
  | cons c front inductionHypothesis =>
    cases skip with
    | succ skip =>
      simp only [List.cons_append, namePartsLength, List.length_cons, Nat.add_right_cancel_iff]
        at within whole ⊢
      exact inductionHypothesis (by omega) whole
    | zero =>
      simp only [List.cons_append, namePartsLength, List.length_cons] at whole ⊢
      cases part : namePartLength? (c :: (front ++ old)) with
      | none => simp [part] at whole
      | some length =>
        have total := namePartLength?_le part
        simp only [part, Nat.add_right_cancel_iff] at whole
        simp only [List.length_cons] at total
        -- The characters of one part are those of the name, so the part ends with it at the latest.
        have short : length - 1 ≤ front.length := by
          rw [← whole]
          exact le_namePartsLength (by omega)
        have again : namePartLength? (c :: (front ++ new)) = some length :=
          @namePartLength?_cut (c :: front) _ _ _ part (by simp) (by rw [List.length_cons]; omega)
        simp only [again, Nat.add_right_cancel_iff]
        exact inductionHypothesis short whole

theorem nameLength_cut (some : front ≠ []) (whole : nameLength (front ++ old) = front.length)
    (ends : namePartLength? new = none) : nameLength (front ++ new) = front.length := by
  obtain ⟨c, front, rfl⟩ := List.exists_cons_of_ne_nil some
  by_cases digit : (c :: front ++ old).head?.any Char.isDigit = true
  · rw [nameLength, if_pos digit] at whole
    simp at whole
  · have letter : ¬(c :: front ++ new).head?.any Char.isDigit = true := digit
    rw [nameLength, if_neg digit] at whole
    rw [nameLength, if_neg letter]
    exact namePartsLength_cut (Nat.zero_le _) whole ends

/-- An escape of which more is written than belongs to it. -/
theorem escapeLength?_cut {length : Nat} (found : escapeLength? (front ++ old) = some length)
    (within : length < front.length) : escapeLength? (front ++ new) = some length := by
  rcases front with _ | ⟨c, _ | ⟨d, front⟩⟩
  · simp at within
  · have positive := escapeLength?_pos found
    simp at within
    omega
  · by_cases code : c = 'u'
    · subst code
      simp only [List.cons_append, escapeLength?, Option.map_eq_some_iff] at found ⊢
      obtain ⟨digits, measured, rfl⟩ := found
      simp only [List.length_cons] at within
      refine ⟨digits, ?_, rfl⟩
      have cut := @codePointLength?_cut (d :: front) _ new _ measured
      exact cut (by simp only [List.length_cons]; omega)
    · by_cases hex : c = 'x'
      · subst hex
        cases front with
        | nil =>
          have three := escapeLength?_hex found
          simp at within
          omega
        | cons e front => exact found
      · by_cases pair : c = '\r' ∧ d = '\n'
        · obtain ⟨rfl, rfl⟩ := pair
          exact found
        · have lineEnd : ∀ rest : List Char, c = '\r' → (d :: rest).head? ≠ some '\n' :=
            fun _ returns feeds => pair ⟨returns, Option.some.inj feeds⟩
          rw [List.cons_append, List.cons_append, escapeLength?_of_other hex code (lineEnd _)] at found ⊢
          rw [← found]
          split
          · next octal =>
            rw [if_pos octal] at found
            -- Of three digits the last may be missing, but then what stops them is written too.
            cases front with
            | cons e front => rfl
            | nil =>
              cases digit : isOctalDigit d with
              | false => simp [digit]
              | true =>
                have counted := Option.some.inj found
                simp only [List.nil_append, List.take_succ_cons, List.takeWhile_cons, digit, if_true,
                  List.length_cons, List.length_nil] at counted within
                omega
          · rfl

theorem quotedLength?_cut {quote : Char} {passed skip : Nat}
    (found : quotedLength? quote passed skip (front ++ old) = some (passed + front.length)) :
    quotedLength? quote passed skip (front ++ new) = some (passed + front.length) := by
  induction front generalizing passed skip with
  | nil =>
    have further := lt_quotedLength? found
    simp only [List.length_nil] at further
    omega
  | cons c front inductionHypothesis =>
    have counted : passed + (c :: front).length = passed + 1 + front.length := by
      simp only [List.length_cons]
      omega
    rw [counted] at found ⊢
    cases skip with
    | succ skip =>
      simp only [List.cons_append, quotedLength?] at found ⊢
      exact inductionHypothesis found
    | zero =>
      simp only [List.cons_append, quotedLength?] at found ⊢
      split
      · next closes => simpa [closes] using found
      · next other =>
        rw [if_neg other] at found
        split
        · next breaks => simp [breaks] at found
        · next noBreak =>
          rw [if_neg noBreak] at found
          split
          · next slash =>
            rw [if_pos slash] at found
            cases escape : escapeLength? (front ++ old) with
            | none => simp [escape] at found
            | some length =>
              simp only [escape] at found
              have further := lt_quotedLength? found
              rw [@escapeLength?_cut _ _ new _ escape (by omega)]
              exact inductionHypothesis found
          · next noSlash =>
            rw [if_neg noSlash] at found
            exact inductionHypothesis found

end Cuts

section Words

variable {text : String} {ahead rest : List Char}

theorem Lexeme.first_eq_word_iff : Lexeme.first ahead = .word text ↔
    nameLength ahead ≠ 0 ∧ text = String.ofList (ahead.take (nameLength ahead)) := by
  cases ahead with
  | nil => simp [Lexeme.first, nameLength, namePartsLength]
  | cons c rest =>
    simp only [Lexeme.first]
    split
    · next name =>
      rw [Lexeme.word.injEq]
      exact ⟨fun same => ⟨by simpa using name, same.symm⟩, fun holds => holds.2.symm⟩
    · next none =>
      have zero : nameLength (c :: rest) = 0 := by simpa using none
      simp only [zero, ne_eq, not_true_eq_false, false_and, iff_false]
      repeat' split
      all_goals simp

/-- The whole text is one word. -/
def Word (text : String) : Prop := Lexeme.first text.toList = .word text

instance (text : String) : Decidable (Word text) := inferInstanceAs (Decidable (_ = _))

/-- The text is a name wherever it is written. -/
structure Readable (text : String) : Prop where
  word : Word text
  name : isName text = true

instance (text : String) : Decidable (Readable text) :=
  decidable_of_iff (Word text ∧ isName text = true)
    ⟨fun holds => ⟨holds.1, holds.2⟩, fun readable => ⟨readable.word, readable.name⟩⟩

theorem Readable.notMem_reservedWords (readable : Readable text) : text ∉ reservedWords := by
  simpa [isName] using readable.name

theorem word_of_first (found : Lexeme.first ahead = .word text) : Word text := by
  obtain ⟨some, rfl⟩ := Lexeme.first_eq_word_iff.mp found
  have within := nameLength_le ahead
  have counted : (ahead.take (nameLength ahead)).length = nameLength ahead := by
    rw [List.length_take]
    omega
  have alone : nameLength (ahead.take (nameLength ahead)) = nameLength ahead := by
    have cut := @nameLength_cut (ahead.take (nameLength ahead)) (ahead.drop (nameLength ahead)) []
      (fun none => some (by rw [← counted, none]; rfl))
      (by rw [List.take_append_drop, counted]) rfl
    rwa [List.append_nil, counted] at cut
  rw [Word, String.toList_ofList, Lexeme.first_eq_word_iff, alone]
  exact ⟨some, by rw [List.take_of_length_le (Nat.le_of_eq counted)]⟩

namespace Word

theorem nameLength_eq (word : Word text) : nameLength text.toList = text.toList.length := by
  obtain ⟨_, same⟩ := Lexeme.first_eq_word_iff.mp word
  have within := nameLength_le text.toList
  have characters := congrArg (List.length ∘ String.toList) same
  simp only [Function.comp_apply, String.toList_ofList, List.length_take] at characters
  omega

theorem ne_nil (word : Word text) : text.toList ≠ [] := by
  intro none
  obtain ⟨some, _⟩ := Lexeme.first_eq_word_iff.mp word
  rw [none] at some
  exact some rfl

theorem first_append (word : Word text) (ends : namePartLength? rest = none) :
    Lexeme.first (text.toList ++ rest) = .word text := by
  have length := word.nameLength_eq
  have whole : nameLength (text.toList ++ rest) = text.toList.length :=
    @nameLength_cut _ [] _ word.ne_nil (by rw [List.append_nil, length]) ends
  rw [Lexeme.first_eq_word_iff, whole, List.take_left, String.ofList_toList]
  exact ⟨fun none => word.ne_nil (List.eq_nil_of_length_eq_zero none), rfl⟩

theorem begins (word : Word text) : ∃ c rest, text.toList = c :: rest ∧
    (isNamePart c = true ∨ c = '\\') ∧ c.isDigit = false := by
  obtain ⟨c, rest, characters⟩ := List.exists_cons_of_ne_nil word.ne_nil
  obtain ⟨some, _⟩ := Lexeme.first_eq_word_iff.mp word
  rw [characters, nameLength] at some
  refine ⟨c, rest, characters, ?_, ?_⟩
  · by_cases slash : c = '\\'
    · exact .inr slash
    · left
      by_contra other
      have none : namePartLength? (c :: rest) = none := by
        rw [namePartLength?, if_neg other]
        exact fun _ same => absurd same slash
      rw [namePartsLength, none] at some
      exact some (ite_self 0)
  · by_contra digit
    have starts : (c :: rest).head?.any Char.isDigit = true := by simpa using digit
    rw [if_pos starts] at some
    exact some rfl

/-- A word does not begin with one of these characters. -/
theorem head_notMem (word : Word text) {c : Char} {rest : List Char}
    (characters : text.toList = c :: rest) :
    isSpace c = false ∧ c ≠ '/' ∧ c ≠ '.' := by
  obtain ⟨first, tail, same, part, _⟩ := word.begins
  obtain ⟨rfl, rfl⟩ := List.cons.inj (characters.symm.trans same)
  rcases part with part | rfl
  · refine ⟨?_, ?_, ?_⟩
    · simp only [isNamePart, Bool.and_eq_true, Bool.not_eq_true'] at part
      exact part.1.2
    · rintro rfl
      revert part
      decide
    · rintro rfl
      revert part
      decide
  · decide

end Word

end Words

section Quotes

/-- A text in quotes as it is written. -/
structure Quotes (raw : List Char) (mark : Char) : Prop where
  known : mark = '\'' ∨ mark = '"'
  whole : ∃ inner, raw = mark :: inner ∧ quotedLength? mark 1 0 inner = some raw.length

variable {raw rest : List Char} {mark : Char}

theorem Lexeme.first_of_quote (known : mark = '\'' ∨ mark = '"') (rest : List Char) :
    Lexeme.first (mark :: rest) = .quote mark := by
  have single : isNamePart '\'' = false := by decide
  have double : isNamePart '"' = false := by decide
  rcases known with rfl | rfl
  · simp [Lexeme.first, nameLength, namePartsLength, namePartLength?, single]
  · simp [Lexeme.first, nameLength, namePartsLength, namePartLength?, double]

theorem Lexeme.quote_of_first {ahead : List Char} (found : Lexeme.first ahead = .quote mark) :
    (mark = '\'' ∨ mark = '"') ∧ ∃ inner, ahead = mark :: inner := by
  cases ahead with
  | nil => simp [Lexeme.first] at found
  | cons c rest =>
    simp only [Lexeme.first] at found
    split at found
    · cases found
    · split at found
      · cases found
      · split at found
        · next known =>
          obtain rfl := Lexeme.quote.inj found
          exact ⟨by simpa using known, rest, rfl⟩
        · repeat' split at found
          all_goals cases found

namespace Quotes

theorem length_append (quotes : Quotes raw mark) (rest : List Char) :
    quotedLength? mark 1 0 ((raw ++ rest).drop 1) = some raw.length := by
  obtain ⟨inner, rfl, whole⟩ := quotes.whole
  have counted : (mark :: inner).length = 1 + inner.length := by simp [Nat.add_comm]
  rw [counted] at whole ⊢
  rw [List.cons_append, List.drop_succ_cons, List.drop_zero]
  exact @quotedLength?_cut _ [] _ _ _ _ (by rw [List.append_nil, whole])

theorem first_append (quotes : Quotes raw mark) (rest : List Char) :
    Lexeme.first (raw ++ rest) = .quote mark := by
  obtain ⟨inner, rfl, _⟩ := quotes.whole
  exact Lexeme.first_of_quote quotes.known _

end Quotes

theorem quotedLength?_le {quote : Char} {passed skip length : Nat} {text : List Char}
    (found : quotedLength? quote passed skip text = some length) : length ≤ passed + text.length := by
  fun_induction quotedLength? quote passed skip text with
  | case1 => cases found
  | case2 passed c rest skip inductionHypothesis =>
    have bound := inductionHypothesis found
    simp only [List.length_cons]
    omega
  | case3 =>
    obtain rfl := Option.some.inj found
    simp only [List.length_cons]
    omega
  | case4 => cases found
  | case5 passed c rest other noBreak slash escaped escape inductionHypothesis =>
    have bound := inductionHypothesis found
    simp only [List.length_cons]
    omega
  | case6 => cases found
  | case7 passed c rest other noBreak noSlash inductionHypothesis =>
    have bound := inductionHypothesis found
    simp only [List.length_cons]
    omega

/-- What is measured up to its end has the mark there. -/
theorem quotedLength?_closes {quote : Char} {passed skip : Nat} {text : List Char}
    (found : quotedLength? quote passed skip text = some (passed + text.length)) :
    ∃ inner, text = inner ++ [quote] := by
  have onward : ∀ {c : Char} {passed : Nat} {rest : List Char},
      passed + (c :: rest).length = passed + 1 + rest.length := by
    intro c passed rest
    rw [List.length_cons]
    omega
  fun_induction quotedLength? quote passed skip text with
  | case1 => cases found
  | case2 passed c rest skip inductionHypothesis =>
    obtain ⟨inner, rfl⟩ := inductionHypothesis (onward ▸ found)
    exact ⟨c :: inner, rfl⟩
  | case3 passed c rest same =>
    have last : rest = [] := List.eq_nil_of_length_eq_zero (by
      have length := Option.some.inj found
      rw [List.length_cons] at length
      omega)
    exact ⟨[], by rw [last, beq_iff_eq.mp same]; rfl⟩
  | case4 => cases found
  | case5 passed c rest other noBreak slash escaped escape inductionHypothesis =>
    obtain ⟨inner, rfl⟩ := inductionHypothesis (onward ▸ found)
    exact ⟨c :: inner, rfl⟩
  | case6 => cases found
  | case7 passed c rest other noBreak noSlash inductionHypothesis =>
    obtain ⟨inner, rfl⟩ := inductionHypothesis (onward ▸ found)
    exact ⟨c :: inner, rfl⟩

theorem Quotes.closed (quotes : Quotes raw mark) : ∃ inner, raw = mark :: inner ++ [mark] := by
  obtain ⟨inner, rfl, measured⟩ := quotes.whole
  rw [List.length_cons, Nat.add_comm] at measured
  obtain ⟨inside, rfl⟩ := quotedLength?_closes measured
  exact ⟨inside, rfl⟩

/-- What is measured as a quoted text is one by itself. -/
theorem quotes_of_measured {ahead : List Char} {length : Nat}
    (found : Lexeme.first ahead = .quote mark)
    (measured : quotedLength? mark 1 0 (ahead.drop 1) = some length) :
    Quotes (ahead.take length) mark := by
  obtain ⟨known, inner, rfl⟩ := Lexeme.quote_of_first found
  rw [List.drop_succ_cons, List.drop_zero] at measured
  have further := lt_quotedLength? measured
  have within := quotedLength?_le measured
  obtain ⟨count, rfl⟩ : ∃ count, length = 1 + count := ⟨length - 1, by omega⟩
  have counted : (inner.take count).length = count := by
    rw [List.length_take]
    omega
  refine ⟨known, inner.take count, by rw [Nat.add_comm, List.take_succ_cons], ?_⟩
  have cut := @quotedLength?_cut (inner.take count) (inner.drop count) [] mark 1 0
    (by rw [List.take_append_drop, counted]; exact measured)
  rw [List.append_nil, counted] at cut
  rw [cut, Nat.add_comm 1, List.take_succ_cons, List.length_cons, counted]

end Quotes

end ImportRedirect.Script
