import ImportRedirect.Proofs.Record

/-!
Texts in quotes. What is written between the quotes means the text, whatever backslashes and quotes the
text has, and a literal whose text is replaced says the same in both of its fields.
-/

namespace ImportRedirect.Node

open Value

/-- Whether the character after these is escaped: a backslash that is not escaped itself stands before
it. -/
def escapes (front : List Char) : Bool :=
  front.foldl (fun escaped c => !escaped && c == '\\') false

/-- What the characters between quotes mean: a backslash and a character stand for the character. -/
def unescape : List Char → List Char
  | '\\' :: c :: rest => c :: unescape rest
  | c :: rest => c :: unescape rest
  | [] => []

/-- The characters are quotes around what means the text. Each quote in between is escaped, and the one at
the end is not. -/
def Encodes (quote : Char) (text raw : String) : Prop :=
  ∃ inner, raw.toList = quote :: (inner ++ [quote]) ∧
    (∀ front rest, inner = front ++ quote :: rest → escapes front = true) ∧
      escapes inner = false ∧ unescape inner = text.toList

/-- What a character is written as. -/
def escaped (quote c : Char) : List Char := if c = '\\' ∨ c = quote then ['\\', c] else [c]

variable {quote c : Char} {front : List Char}

theorem escaped_of_special (special : c = '\\' ∨ c = quote) : escaped quote c = ['\\', c] := if_pos special

theorem escaped_of_plain (plain : ¬(c = '\\' ∨ c = quote)) : escaped quote c = [c] := if_neg plain

/-- Backslashes that come in front of quotes are not doubled, since backslashes are doubled first. -/
theorem flatMap_escapes (other : quote ≠ '\\') (text : List Char) :
    (text.flatMap escapeBackslash).flatMap (escapeQuote quote) = text.flatMap (escaped quote) := by
  rw [List.flatMap_assoc]
  congr 1
  funext c
  by_cases backslash : c = '\\'
  · subst backslash
    simp [escapeBackslash, escapeQuote, escaped, other.symm]
  · simp [escapeBackslash, escapeQuote, escaped, backslash]

theorem escapes_pair : escapes ('\\' :: c :: front) = escapes front := rfl

theorem escapes_cons (plain : c ≠ '\\') : escapes (c :: front) = escapes front := by
  have first : (!false && c == '\\') = false := by simpa using plain
  rw [escapes, List.foldl_cons, first, escapes]

theorem escapes_written (quote : Char) (text : List Char) :
    escapes (text.flatMap (escaped quote)) = false := by
  induction text with
  | nil => rfl
  | cons c rest inductionHypothesis =>
    rw [List.flatMap_cons]
    by_cases special : c = '\\' ∨ c = quote
    · rw [escaped_of_special special]
      exact inductionHypothesis
    · rw [escaped_of_plain special, List.singleton_append, escapes_cons (not_or.mp special).1]
      exact inductionHypothesis

/-- A quote in what is written is the second character of a pair. -/
theorem escapes_of_quote (other : quote ≠ '\\') {text rest : List Char}
    (here : text.flatMap (escaped quote) = front ++ quote :: rest) : escapes front = true := by
  induction text generalizing front with
  | nil => simp at here
  | cons c text inductionHypothesis =>
    rw [List.flatMap_cons] at here
    by_cases special : c = '\\' ∨ c = quote
    · rw [escaped_of_special special] at here
      match front with
      | [] => exact absurd (List.cons.inj here).1.symm other
      | ['\\'] => rfl
      | first :: second :: front =>
        obtain ⟨rfl, tail⟩ := List.cons.inj here
        obtain ⟨rfl, later⟩ := List.cons.inj tail
        rw [escapes_pair]
        exact inductionHypothesis later
    · rw [escaped_of_plain special] at here
      match front with
      | [] => exact absurd (.inr (List.cons.inj here).1) special
      | first :: front =>
        obtain ⟨rfl, later⟩ := List.cons.inj here
        rw [escapes_cons (not_or.mp special).1]
        exact inductionHypothesis later

theorem unescape_cons {rest : List Char} (plain : c ≠ '\\') : unescape (c :: rest) = c :: unescape rest := by
  rw [unescape]
  exact fun _ _ same => absurd same plain

theorem unescape_written (quote : Char) (text : List Char) :
    unescape (text.flatMap (escaped quote)) = text := by
  induction text with
  | nil => rfl
  | cons c rest inductionHypothesis =>
    rw [List.flatMap_cons]
    by_cases special : c = '\\' ∨ c = quote
    · rw [escaped_of_special special]
      exact congrArg (c :: ·) inductionHypothesis
    · rw [escaped_of_plain special, List.singleton_append, unescape_cons (not_or.mp special).1,
        inductionHypothesis]

theorem encodes_quoteText (other : quote ≠ '\\') (text : String) :
    Encodes quote text (quoteText text quote) := by
  refine ⟨text.toList.flatMap (escaped quote), ?_, fun front rest here => escapes_of_quote other here,
    escapes_written quote _, unescape_written quote _⟩
  rw [quoteText, String.toList_ofList, quoteChars, flatMap_escapes other, List.cons_append]

/-- The quote of a written text is the one that it begins with, if it begins with one. -/
theorem quoteOf_str (raw : String) :
    quoteOf (.str raw) = .ok (if raw.toList.head? == some '"' then '"' else '\'') := by
  by_cases some : raw = ""
  · subst some
    rfl
  · have present : (Value.str raw).isPresent = true := (isPresent_iff_ne_empty raw).mpr some
    simp [quoteOf, present]

/-- Quoting is faithful: what is written between quotes is read as the text. A literal whose written text
is absent or is a text takes on another text with all its other fields unchanged, and keeps the quote that
it was written with. -/
theorem setText_encodes (text : String) :
    (∀ quote ∈ ['\'', '"'], Encodes quote text (quoteText text quote)) ∧
      ∀ fields, (∀ raw, lookup "raw" fields = some raw → ∃ old, raw = .str old) →
        ∃ changed quote raw, setText (.obj fields) text = .ok (.obj changed) ∧
          quote ∈ ['\'', '"'] ∧ lookup "value" changed = some (.str text) ∧
            lookup "raw" changed = some (.str raw) ∧ Encodes quote text raw ∧
              (∀ old mark, lookup "raw" fields = some (.str old) → old.toList.head? = some mark →
                mark ∈ ['\'', '"'] → quote = mark) ∧
                ∀ key, key ≠ "value" → key ≠ "raw" → lookup key changed = lookup key fields := by
  have either : ∀ quote ∈ ['\'', '"'], quote ≠ '\\' := by simp
  refine ⟨fun quote known => encodes_quoteText (either quote known) text, fun fields written => ?_⟩
  obtain ⟨quote, found, known, kept⟩ : ∃ quote, quoteOf ((obj fields).peek "raw") = .ok quote ∧
      quote ∈ ['\'', '"'] ∧ ∀ old mark, lookup "raw" fields = some (.str old) →
        old.toList.head? = some mark → mark ∈ ['\'', '"'] → quote = mark := by
    rw [peek]
    cases given : lookup "raw" fields with
    | none => exact ⟨'\'', rfl, by simp, by simp⟩
    | some raw =>
      obtain ⟨old, rfl⟩ := written raw given
      refine ⟨_, quoteOf_str old, by split <;> simp, fun other mark same begins marked => ?_⟩
      obtain rfl := Value.str.inj (Option.some.inj same)
      rw [begins]
      have either : mark = '\'' ∨ mark = '"' := by simpa using marked
      rcases either with rfl | rfl <;> rfl
  let raw := quoteText text quote
  refine ⟨insert "raw" (.str raw) (insert "value" (.str text) fields), quote, raw, ?_, known, ?_,
    lookup_insert_self _ _ _, encodes_quoteText (either quote known) text, kept, fun key value raw => ?_⟩
  · rw [setText_of_isRecord (isRecord_obj fields), found]
    rfl
  · rw [lookup_insert_of_ne (by decide), lookup_insert_self]
  · rw [lookup_insert_of_ne raw, lookup_insert_of_ne value]

end ImportRedirect.Node
