import ImportRedirect.Proofs.Script.Parting.Lexeme
import ImportRedirect.Script.Markup

/-!
The lengths of quoted texts, templates, regular expressions, numbers and the parts of markup. One
that ends before the border has the same length whatever comes after it.
-/

namespace ImportRedirect.Script

variable {old new : List Char}

section Quoted

def isOctalDigit (c : Char) : Bool := '0' ≤ c && c ≤ '7'

theorem escapeLength?_of_other {c : Char} {rest : List Char} (hex : c ≠ 'x') (code : c ≠ 'u')
    (lineEnd : c = '\r' → rest.head? ≠ some '\n') :
    escapeLength? (c :: rest) = some
      (if isOctalDigit c then 1 + ((rest.take 2).takeWhile isOctalDigit).length else 1) := by
  rw [escapeLength?, if_neg (by simpa using hex)]
  · exact (apply_ite some _ _ _).symm
  · exact fun _ _ _ same => absurd same hex
  · exact fun same => absurd same code
  · exact fun after same next => lineEnd same (by rw [next]; rfl)

theorem takeWhile_take_append (meets : Meets old new) {p : Char → Bool}
    (foreign : ∀ c ∈ partingLetters, p c = false) (front : List Char) :
    ((front ++ new).take 2).takeWhile p = ((front ++ old).take 2).takeWhile p := by
  match front with
  | _ :: _ :: _ => rfl
  | [] | [_] =>
    rcases meets.nil_or_cons with ⟨rfl, rfl⟩ | ⟨letter, among, rest, other, rfl, rfl⟩
    · rfl
    · simp [foreign letter among]

theorem escapeLength?_hex {rest : List Char} {length : Nat}
    (found : escapeLength? ('x' :: rest) = some length) : length = 3 := by
  match rest with
  | [] | [_] => simp [escapeLength?] at found
  | a :: b :: rest =>
    rw [escapeLength?] at found
    split at found
    · exact (Option.some.inj found).symm
    · cases found

theorem escapeLength?_pos {text : List Char} {length : Nat}
    (found : escapeLength? text = some length) : 0 < length := by
  unfold escapeLength? at found
  split at found
  · cases found
  · split at found <;> simp at found
    omega
  · obtain ⟨inner, _, rfl⟩ := Option.map_eq_some_iff.mp found
    omega
  · obtain rfl := Option.some.inj found
    omega
  · repeat' split at found
    all_goals simp at found
    all_goals omega

theorem escapeLength?_append (meets : Meets old new) {front : List Char} {length : Nat}
    (found : escapeLength? (front ++ old) = some length) (within : length ≤ front.length) :
    escapeLength? (front ++ new) = some length := by
  cases front with
  | nil =>
    have positive := escapeLength?_pos found
    simp only [List.length_nil] at within
    omega
  | cons c front =>
    rw [List.cons_append] at found ⊢
    by_cases hex : c = 'x'
    · subst hex
      have three := escapeLength?_hex found
      -- Both digits stand before the border.
      match front with
      | a :: b :: front => simpa only [List.cons_append, escapeLength?] using found
      | [] | [_] =>
        simp only [List.length_cons, List.length_nil] at within
        omega
    · by_cases code : c = 'u'
      · subst code
        simpa only [escapeLength?, codePointLength?_append meets] using found
      · have next := meets.head?_append front
        by_cases lineEnd : c = '\r' ∧ (front ++ old).head? = some '\n'
        · obtain ⟨rfl, begins⟩ := lineEnd
          obtain ⟨tail, oldTail⟩ := List.head?_eq_some_iff.mp begins
          obtain ⟨other, newTail⟩ := List.head?_eq_some_iff.mp (next ▸ begins)
          rw [oldTail] at found
          rw [newTail]
          exact found
        · have plain : c = '\r' → (front ++ old).head? ≠ some '\n' :=
            fun same begins => lineEnd ⟨same, begins⟩
          rw [escapeLength?_of_other hex code plain] at found
          rw [escapeLength?_of_other hex code (next ▸ plain),
            takeWhile_take_append meets (forall_partingLetters.mpr (by decide))]
          exact found

theorem lt_quotedLength? {quote : Char} {passed skip length : Nat} {text : List Char}
    (found : quotedLength? quote passed skip text = some length) : passed + skip < length := by
  fun_induction quotedLength? quote passed skip text with
  | case1 => cases found
  | case2 passed c rest skip inductionHypothesis =>
    have further := inductionHypothesis found
    omega
  | case3 =>
    obtain rfl := Option.some.inj found
    omega
  | case4 => cases found
  | case5 passed c rest other noBreak slash length escape inductionHypothesis =>
    have further := inductionHypothesis found
    omega
  | case6 => cases found
  | case7 passed c rest other noBreak noSlash inductionHypothesis =>
    have further := inductionHypothesis found
    omega

theorem quotedLength?_append (meets : Meets old new) {quote : Char} {passed skip length : Nat}
    {front : List Char} (found : quotedLength? quote passed skip (front ++ old) = some length)
    (within : length ≤ passed + front.length) :
    quotedLength? quote passed skip (front ++ new) = some length := by
  induction front generalizing passed skip with
  | nil =>
    have further := lt_quotedLength? found
    simp only [List.length_nil] at within
    omega
  | cons c front inductionHypothesis =>
    simp only [List.length_cons] at within
    cases skip with
    | succ skip =>
      simp only [List.cons_append, quotedLength?] at found ⊢
      exact inductionHypothesis found (by omega)
    | zero =>
      simp only [List.cons_append, quotedLength?] at found ⊢
      split
      · next closes => simpa [closes] using found
      · next other =>
        rw [if_neg other] at found
        split
        · next breaks => simp [breaks] at found
        · next noBreak =>
          rw [if_neg noBreak] at found
          split
          · next slash =>
            rw [if_pos slash] at found
            cases escape : escapeLength? (front ++ old) with
            | none => simp [escape] at found
            | some escaped =>
              simp only [escape] at found
              have further := lt_quotedLength? found
              rw [escapeLength?_append meets escape (by omega)]
              exact inductionHypothesis found (by omega)
          · next noSlash =>
            rw [if_neg noSlash] at found
            exact inductionHypothesis found (by omega)

theorem lt_templateLength? {passed skip length : Nat} {closed : Bool} {text : List Char}
    (found : templateLength? passed skip text = some (length, closed)) : passed + skip < length := by
  fun_induction templateLength? passed skip text with
  | case1 => cases found
  | case2 passed c rest skip inductionHypothesis =>
    have further := inductionHypothesis found
    omega
  | case3 | case4 =>
    obtain ⟨rfl, rfl⟩ := Prod.mk.inj (Option.some.inj found)
    omega
  | case5 passed c rest other plain slash length escape inductionHypothesis =>
    have further := inductionHypothesis found
    omega
  | case6 => cases found
  | case7 passed c rest other plain noSlash inductionHypothesis =>
    have further := inductionHypothesis found
    omega

theorem templateLength?_append (meets : Meets old new) {passed skip length : Nat} {closed : Bool}
    {front : List Char} (found : templateLength? passed skip (front ++ old) = some (length, closed))
    (within : length ≤ passed + front.length) :
    templateLength? passed skip (front ++ new) = some (length, closed) := by
  induction front generalizing passed skip with
  | nil =>
    have further := lt_templateLength? found
    simp only [List.length_nil] at within
    omega
  | cons c front inductionHypothesis =>
    simp only [List.length_cons] at within
    cases skip with
    | succ skip =>
      simp only [List.cons_append, templateLength?] at found ⊢
      exact inductionHypothesis found (by omega)
    | zero =>
      simp only [List.cons_append, templateLength?, ← meets.head?_append front] at found ⊢
      split
      · next closes => simpa [closes] using found
      · next other =>
        rw [if_neg other] at found
        split
        · next substitutes =>
          rw [if_pos substitutes] at found
          exact found
        · next plain =>
          rw [if_neg plain] at found
          split
          · next slash =>
            rw [if_pos slash] at found
            cases escape : escapeLength? (front ++ old) with
            | none => simp [escape] at found
            | some escaped =>
              simp only [escape] at found
              have further := lt_templateLength? found
              rw [escapeLength?_append meets escape (by omega)]
              exact inductionHypothesis found (by omega)
          · next noSlash =>
            rw [if_neg noSlash] at found
            exact inductionHypothesis found (by omega)

end Quoted

section Regex

theorem lt_patternLength? {inClass : Bool} {passed length : Nat} {text : List Char}
    (found : patternLength? inClass passed text = some length) : passed < length := by
  fun_induction patternLength? inClass passed text with
  | case1 | case2 | case4 => cases found
  | case3 passed inClass c rest noBreak inductionHypothesis =>
    have further := inductionHypothesis found
    omega
  | case5 passed c rest _ _ inductionHypothesis =>
    have further := inductionHypothesis found
    omega
  | case6 =>
    obtain rfl := Option.some.inj found
    omega
  | case7 inClass passed c rest _ _ _ _ inductionHypothesis =>
    have further := inductionHypothesis found
    omega

theorem patternLength?_cons {inClass : Bool} {passed : Nat} {c : Char} (plain : c ≠ '\\')
    (rest : List Char) :
    patternLength? inClass passed (c :: rest) =
      if c == '\n' || c == '\\' then none
      else if inClass then patternLength? (c != ']') (passed + 1) rest
      else if c == '/' then some (passed + 1)
      else patternLength? (c == '[') (passed + 1) rest := by
  rw [patternLength?]
  exact fun _ _ same => absurd same plain

theorem patternLength?_append (meets : Meets old new) {inClass : Bool} {passed length : Nat}
    {front : List Char} (found : patternLength? inClass passed (front ++ old) = some length)
    (within : length ≤ passed + front.length) :
    patternLength? inClass passed (front ++ new) = some length := by
  fun_induction patternLength? inClass passed front with
  | case1 passed inClass =>
    have further := lt_patternLength? found
    simp only [List.length_nil] at within
    omega
  | case2 passed inClass c rest lineBreak =>
    simp [patternLength?, lineBreak] at found
  | case3 passed inClass c rest noBreak inductionHypothesis =>
    simp only [List.cons_append, patternLength?, noBreak, List.length_cons] at found within ⊢
    exact inductionHypothesis found (by omega)
  | case4 inClass passed c rest other ends =>
    by_cases slash : c = '\\'
    · -- The escaped character would stand at the border.
      obtain rfl : rest = [] := by
        cases rest with
        | nil => rfl
        | cons d rest => exact absurd rfl (other d rest slash)
      subst slash
      rw [List.cons_append, List.nil_append] at found
      cases old with
      | nil => simp [patternLength?] at found
      | cons letter tail =>
        rw [patternLength?] at found
        split at found
        · cases found
        · have further := lt_patternLength? found
          simp only [List.length_cons, List.length_nil] at within
          omega
    · rw [List.cons_append, patternLength?_cons slash, if_pos ends] at found
      cases found
  | case5 passed c rest other goesOn inductionHypothesis =>
    have slash : c ≠ '\\' := by
      rintro rfl
      simp at goesOn
    rw [List.cons_append, patternLength?_cons slash, if_neg goesOn, if_pos rfl] at found ⊢
    simp only [List.length_cons] at within
    exact inductionHypothesis found (by omega)
  | case6 inClass passed c rest other goesOn noClass closes =>
    have slash : c ≠ '\\' := by
      rintro rfl
      simp at goesOn
    rw [List.cons_append, patternLength?_cons slash, if_neg goesOn, if_neg noClass,
      if_pos closes] at found ⊢
    exact found
  | case7 inClass passed c rest other goesOn noClass open_ inductionHypothesis =>
    have slash : c ≠ '\\' := by
      rintro rfl
      simp at goesOn
    rw [List.cons_append, patternLength?_cons slash, if_neg goesOn, if_neg noClass,
      if_neg open_] at found ⊢
    simp only [List.length_cons] at within
    exact inductionHypothesis found (by omega)

theorem regexLength?_append (meets : Meets old new) {length : Nat} {front : List Char}
    (found : regexLength? (front ++ old) = some length) (within : length ≤ front.length) :
    regexLength? (front ++ new) = some length := by
  obtain ⟨pattern, closed, total⟩ := Option.map_eq_some_iff.mp found
  have short : pattern ≤ front.length := by omega
  rw [regexLength?, patternLength?_append meets closed (by omega), Option.map_some, ← total]
  rw [List.drop_append_of_le_length short] at total
  rw [List.drop_append_of_le_length short, List.drop_append_of_le_length short,
    takeWhile_append_of_within meets (by rw [List.length_drop]; omega)]

end Regex

section Number

theorem digitsLength_cons {isDigit : Char → Bool} {d : Char} {rest : List Char}
    (plain : d ≠ '_' ∨ rest = []) :
    digitsLength isDigit (d :: rest) = if isDigit d then digitsLength isDigit rest + 1 else 0 := by
  rw [digitsLength]
  intro next tail same begins
  rcases plain with plain | plain
  · exact plain same
  · simp [plain] at begins

theorem digitsLength_append (meets : Meets old new) {isDigit : Char → Bool} {front : List Char}
    (within : digitsLength isDigit (front ++ old) ≤ front.length) :
    digitsLength isDigit (front ++ new) = digitsLength isDigit (front ++ old) := by
  cases front with
  | nil =>
    rcases meets.nil_or_cons with ⟨rfl, rfl⟩ | ⟨letter, among, rest, other, rfl, rfl⟩
    · rfl
    · have plain : letter ≠ '_' := by
        rintro rfl
        simp [partingLetters] at among
      rw [List.nil_append, digitsLength_cons (.inl plain)] at within ⊢
      rw [List.nil_append, digitsLength_cons (.inl plain)]
      split
      · next digit => simp [digit] at within
      · rfl
  | cons d front =>
    by_cases pair : d = '_' ∧ front ++ old ≠ []
    · obtain ⟨rfl, more⟩ := pair
      cases front with
      | nil =>
        rcases meets.nil_or_cons with ⟨rfl, rfl⟩ | ⟨letter, among, rest, other, rfl, rfl⟩
        · rfl
        · simp only [List.cons_append, List.nil_append, digitsLength] at within ⊢
          split
          · next digit => simp [digit] at within
          · rfl
      | cons d front =>
        simp only [List.cons_append, digitsLength, List.length_cons] at within ⊢
        split
        · next digit =>
          rw [if_pos digit] at within
          rw [digitsLength_append meets (by omega)]
        · rfl
    · have single : ∀ text, text = old ∨ text = new → d ≠ '_' ∨ front ++ text = [] := by
        intro text text_eq
        by_cases underscore : d = '_'
        · right
          have empty : front = [] ∧ old = [] := by simpa [underscore] using pair
          obtain ⟨rfl, rfl⟩ := empty
          rcases meets.nil_or_cons with ⟨_, rfl⟩ | ⟨_, _, _, _, begins, _⟩
          · rcases text_eq with rfl | rfl <;> rfl
          · cases begins
        · exact .inl underscore
      simp only [List.cons_append, digitsLength_cons (single old (.inl rfl)),
        digitsLength_cons (single new (.inr rfl))] at within ⊢
      split
      · next digit =>
        rw [if_pos digit, List.length_cons] at within
        rw [digitsLength_append meets (by omega)]
      · rfl

theorem digitRunLength_append (meets : Meets old new) {isDigit : Char → Bool} {front : List Char}
    (within : digitRunLength isDigit (front ++ old) ≤ front.length) :
    digitRunLength isDigit (front ++ new) = digitRunLength isDigit (front ++ old) := by
  unfold digitRunLength at within ⊢
  rw [← meets.head?_append front]
  split
  · next begins =>
    rw [if_pos begins] at within
    exact digitsLength_append meets within
  · rfl

theorem basedLength_append (meets : Meets old new) {isDigit : Char → Bool} {front : List Char}
    (within : basedLength isDigit (front ++ old) ≤ front.length + 2) :
    basedLength isDigit (front ++ new) = basedLength isDigit (front ++ old) := by
  unfold basedLength at within ⊢
  dsimp only at within ⊢
  have short : digitRunLength isDigit (front ++ old) ≤ front.length := by
    split at within
    · next none =>
      rw [beq_iff_eq] at none
      omega
    · omega
  rw [digitRunLength_append meets short, List.drop_append_of_le_length short,
    List.drop_append_of_le_length short, meets.head?_append]

theorem exponentLength_of_sign {c d : Char} {rest : List Char} (letter : c = 'e' ∨ c = 'E')
    (sign : d = '+' ∨ d = '-') :
    exponentLength (c :: d :: rest) =
      if digitRunLength Char.isDigit rest == 0 then 0 else digitRunLength Char.isDigit rest + 2 := by
  rcases letter with rfl | rfl <;> rcases sign with rfl | rfl <;> rfl

theorem exponentLength_of_letter {c : Char} {rest : List Char} (letter : c = 'e' ∨ c = 'E')
    (unsigned : ∀ d, d = '+' ∨ d = '-' → rest.head? ≠ some d) :
    exponentLength (c :: rest) =
      if digitRunLength Char.isDigit rest == 0 then 0 else digitRunLength Char.isDigit rest + 1 := by
  have plus : ∀ after, rest ≠ '+' :: after := fun after same =>
    unsigned '+' (.inl rfl) (by rw [same]; rfl)
  have minus : ∀ after, rest ≠ '-' :: after := fun after same =>
    unsigned '-' (.inr rfl) (by rw [same]; rfl)
  rcases letter with rfl | rfl
  all_goals
    unfold exponentLength
    split <;> simp_all

theorem exponentLength_of_other {text : List Char} (none : text.head? ≠ some 'e')
    (capital : text.head? ≠ some 'E') : exponentLength text = 0 := by
  unfold exponentLength
  split <;> simp_all

theorem exponentLength_append (meets : Meets old new) {front : List Char}
    (within : exponentLength (front ++ old) ≤ front.length) :
    exponentLength (front ++ new) = exponentLength (front ++ old) := by
  cases front with
  | nil =>
    rcases meets.nil_or_cons with ⟨rfl, rfl⟩ | ⟨letter, among, rest, other, rfl, rfl⟩
    · rfl
    · have letters : ∀ c ∈ partingLetters, c ≠ 'e' ∧ c ≠ 'E' :=
        forall_partingLetters.mpr (by decide)
      obtain ⟨small, capital⟩ := letters letter among
      rw [exponentLength_of_other, exponentLength_of_other] <;> simpa
  | cons c front =>
    by_cases letter : c = 'e' ∨ c = 'E'
    · have next := meets.head?_append front
      by_cases signed : ∃ d, (d = '+' ∨ d = '-') ∧ (front ++ old).head? = some d
      · obtain ⟨d, sign, begins⟩ := signed
        obtain ⟨tail, begins⟩ := List.head?_eq_some_iff.mp begins
        have foreign : d ∉ partingLetters := by rcases sign with rfl | rfl <;> decide
        obtain ⟨rest, rfl⟩ := meets.cons_of_append (.inl rfl) foreign begins
        simp only [List.cons_append, exponentLength_of_sign letter sign, List.length_cons] at within ⊢
        rw [digitRunLength_append meets]
        split at within
        · next none =>
          rw [beq_iff_eq] at none
          omega
        · omega
      · have unsigned : ∀ d, d = '+' ∨ d = '-' → (front ++ old).head? ≠ some d :=
          fun d sign begins => signed ⟨d, sign, begins⟩
        simp only [List.cons_append, exponentLength_of_letter letter unsigned,
          exponentLength_of_letter letter (next ▸ unsigned), List.length_cons] at within ⊢
        rw [digitRunLength_append meets]
        split at within
        · next none =>
          rw [beq_iff_eq] at none
          omega
        · omega
    · rw [not_or] at letter
      rw [exponentLength_of_other, exponentLength_of_other] <;> simp [letter]

/-- The length of what may come after the whole digits of a number. -/
def fractionLength : List Char → Nat
  | '.' :: rest =>
    let fraction := digitRunLength Char.isDigit rest
    1 + fraction + exponentLength (rest.drop fraction)
  | 'n' :: _ => 1
  | rest => exponentLength rest

theorem fractionLength_of_other {text : List Char} (point : text.head? ≠ some '.')
    (big : text.head? ≠ some 'n') : fractionLength text = exponentLength text := by
  unfold fractionLength
  split <;> simp_all

theorem fractionLength_append (meets : Meets old new) {front : List Char}
    (within : fractionLength (front ++ old) ≤ front.length) :
    fractionLength (front ++ new) = fractionLength (front ++ old) := by
  have next := meets.head?_append front
  by_cases point : (front ++ old).head? = some '.'
  · obtain ⟨tail, begins⟩ := List.head?_eq_some_iff.mp point
    obtain ⟨rest, rfl⟩ := meets.cons_of_append (.inl rfl) (by decide) begins
    simp only [List.cons_append, fractionLength, List.length_cons] at within ⊢
    have short : digitRunLength Char.isDigit (rest ++ old) ≤ rest.length := by omega
    have counted := List.length_drop (i := digitRunLength Char.isDigit (rest ++ old)) (l := rest)
    rw [List.drop_append_of_le_length short] at within
    rw [digitRunLength_append meets short, List.drop_append_of_le_length short,
      List.drop_append_of_le_length short, exponentLength_append meets (by omega)]
  · by_cases big : (front ++ old).head? = some 'n'
    · obtain ⟨tail, begins⟩ := List.head?_eq_some_iff.mp big
      obtain ⟨rest, rfl⟩ := meets.cons_of_append (.inl rfl) (by decide) begins
      rfl
    · rw [fractionLength_of_other point big] at within ⊢
      rw [fractionLength_of_other (next ▸ point) (next ▸ big), exponentLength_append meets within]

/-- The letters after which a number is written in another base. -/
def bases : List Char := ['x', 'X', 'b', 'B', 'o', 'O']

theorem numberLength_of_base {base : Char} (based : base ∈ bases) :
    ∃ isDigit, ∀ rest, numberLength ('0' :: base :: rest) = basedLength isDigit rest := by
  simp only [bases, List.mem_cons, List.not_mem_nil, or_false] at based
  rcases based with rfl | rfl | rfl | rfl | rfl | rfl <;> exact ⟨_, fun _ => rfl⟩

theorem numberLength_of_decimal {text : List Char}
    (decimal : ∀ base rest, text = '0' :: base :: rest → base ∉ bases) :
    numberLength text = digitRunLength Char.isDigit text +
      fractionLength (text.drop (digitRunLength Char.isDigit text)) := by
  unfold numberLength
  split
  all_goals first
    | next rest => exact absurd (by decide) (decimal _ rest rfl)
    | skip
  dsimp only
  generalize text.drop (digitRunLength Char.isDigit text) = tail
  fun_cases fractionLength tail with
  | case1 rest fraction => simp [fraction, Nat.add_assoc]
  | case2 rest => rfl
  | case3 tail point big => simp

theorem numberLength_append (meets : Meets old new) {front : List Char} (before : front ≠ [])
    (within : numberLength (front ++ old) ≤ front.length) :
    numberLength (front ++ new) = numberLength (front ++ old) := by
  by_cases based : ∃ base ∈ bases, ∃ rest, front ++ old = '0' :: base :: rest
  · obtain ⟨base, among, tail, begins⟩ := based
    have foreign : ∀ c ∈ bases, c ∉ partingLetters := by simp [bases, partingLetters]
    obtain ⟨front, rfl⟩ := meets.cons_of_append (.inl rfl) (by decide) begins
    obtain ⟨rest, rfl⟩ := meets.cons_of_append (.inl rfl) (foreign base among)
      (List.cons.inj begins).2
    obtain ⟨isDigit, length⟩ := numberLength_of_base among
    simp only [List.cons_append, length, List.length_cons] at within ⊢
    exact basedLength_append meets within
  · have decimal : ∀ text, text = old ∨ text = new → ∀ base rest,
        front ++ text = '0' :: base :: rest → base ∉ bases := by
      intro text text_eq base rest begins among
      have foreign : ∀ c ∈ bases, c ∉ partingLetters := by simp [bases, partingLetters]
      obtain ⟨tail, rfl⟩ := meets.cons_of_append text_eq (by decide) begins
      obtain ⟨tail, rfl⟩ := meets.cons_of_append text_eq (foreign base among)
        (List.cons.inj begins).2
      exact based ⟨base, among, tail ++ old, rfl⟩
    rw [numberLength_of_decimal (decimal old (.inl rfl))] at within ⊢
    rw [numberLength_of_decimal (decimal new (.inr rfl))]
    have short : digitRunLength Char.isDigit (front ++ old) ≤ front.length := by omega
    have counted := List.length_drop (i := digitRunLength Char.isDigit (front ++ old)) (l := front)
    rw [List.drop_append_of_le_length short] at within
    rw [digitRunLength_append meets short, List.drop_append_of_le_length short,
      List.drop_append_of_le_length short, fractionLength_append meets (by omega)]

end Number

section Markup

theorem markupNameLength_append (meets : Meets old new) {front : List Char}
    (within : markupNameLength (front ++ old) ≤ front.length) :
    markupNameLength (front ++ new) = markupNameLength (front ++ old) := by
  unfold markupNameLength at within ⊢
  dsimp only at within ⊢
  have short : nameLength (front ++ old) ≤ front.length := by
    split at within <;> omega
  rw [nameLength_append meets short, List.drop_append_of_le_length short,
    List.drop_append_of_le_length short, ← meets.head?_append]
  split
  · next dashed =>
    rw [List.drop_append_of_le_length short, if_pos dashed] at within
    rw [takeWhile_append_of_within meets (by rw [List.length_drop]; omega)]
  · rfl

/-- The length of a reference whose introduction has `intro` characters. -/
def closedReferenceLength? (intro most : Nat) (isPart : Char → Bool) (ahead : List Char) :
    Option Nat :=
  let parts := ((ahead.drop intro).takeWhile isPart).length
  if 0 < parts && parts ≤ most && (ahead.drop (intro + parts)).head? == some ';' then
    some (intro + parts + 1)
  else none

theorem closedReferenceLength?_append (meets : Meets old new) {intro most length : Nat}
    {isPart : Char → Bool} {front : List Char}
    (found : closedReferenceLength? intro most isPart (front ++ old) = some length)
    (within : length ≤ front.length) :
    closedReferenceLength? intro most isPart (front ++ new) = some length := by
  unfold closedReferenceLength? at found ⊢
  dsimp only at found ⊢
  split at found
  · next closed =>
    obtain rfl := Option.some.inj found
    have short : intro ≤ front.length := by omega
    have counted := List.length_drop (i := intro) (l := front)
    rw [List.drop_append_of_le_length short] at closed within ⊢
    rw [List.drop_append_of_le_length short, takeWhile_append_of_within meets (by omega)]
    rw [List.drop_append_of_le_length (by omega)] at closed ⊢
    rw [← meets.head?_append, if_pos closed]
  · cases found

/-- How many characters introduce a reference, how many it may have, and which ones. -/
def referenceShape (text : List Char) : Nat × Nat × (Char → Bool) :=
  if text.head? == some '#' then
    if (text.drop 1).head?.any (fun c => c == 'x' || c == 'X') then (2, 6, isHexDigit)
    else (1, 5, Char.isDigit)
  else (0, 30, Char.isAlpha)

theorem referenceLength?_eq (text : List Char) : referenceLength? text =
    closedReferenceLength? (referenceShape text).1 (referenceShape text).2.1
      (referenceShape text).2.2 text := by
  unfold referenceLength? referenceShape
  match text with
  | [] => rfl
  | [c] => by_cases hash : c = '#' <;> simp [hash, closedReferenceLength?]
  | c :: d :: rest =>
    by_cases hash : c = '#' <;> by_cases small : d = 'x' <;> by_cases capital : d = 'X' <;>
      simp_all [closedReferenceLength?]

theorem referenceShape_append (meets : Meets old new) (front : List Char) :
    referenceShape (front ++ new) = referenceShape (front ++ old) := by
  cases front with
  | cons c front => simp [referenceShape, ← meets.head?_append front]
  | nil =>
    rcases meets.nil_or_cons with ⟨rfl, rfl⟩ | ⟨letter, among, rest, other, rfl, rfl⟩
    · rfl
    · have letters : ∀ c ∈ partingLetters, c ≠ '#' :=
        forall_partingLetters.mpr (by decide)
      simp [referenceShape, letters letter among]

theorem referenceLength?_append (meets : Meets old new) {front : List Char} {length : Nat}
    (found : referenceLength? (front ++ old) = some length) (within : length ≤ front.length) :
    referenceLength? (front ++ new) = some length := by
  rw [referenceLength?_eq] at found ⊢
  rw [referenceShape_append meets]
  exact closedReferenceLength?_append meets found within

end Markup

end ImportRedirect.Script
