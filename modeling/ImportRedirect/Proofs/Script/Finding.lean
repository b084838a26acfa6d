import ImportRedirect.Proofs.Script.Follow
import ImportRedirect.Proofs.Script.Spelling

/-!
Reading what is known to be ahead. A reader finds something when it does not fail; the rules take it
apart step by step, and each of them says which token is passed and what comes after it.
-/

namespace ImportRedirect.Script

/-- The next token of a text, and the characters after it. -/
structure Begins (text : List Char) (lexeme : Lexeme) (rest : List Char) : Prop where
  first : Lexeme.first (tokenText text) = lexeme
  after : (tokenText text).drop lexeme.length = rest

section Begins

variable {text rest : List Char} {lexeme : Lexeme} {c : Char}

theorem tokenText_of_plain (space : isSpace c = false) (slash : c ≠ '/') (rest : List Char) :
    tokenText (c :: rest) = c :: rest := by
  have none : triviaLength (c :: rest) = 0 := by
    rw [triviaLength, Trivia.lengthFrom, if_neg (by simp [space])]
    · exact fun _ same => absurd same slash
    · exact fun _ same => absurd same slash
  rw [tokenText, none, List.drop_zero]

theorem tokenText_of_space (space : isSpace c = true) (rest : List Char) :
    tokenText (c :: rest) = tokenText rest := by
  rw [tokenText, tokenText, triviaLength, Trivia.lengthFrom_blank_space space,
    Trivia.lengthFrom_blank, Nat.add_comm, Nat.zero_add, List.drop_succ_cons]

theorem tokenText_blank (rest : List Char) : tokenText (' ' :: rest) = tokenText rest :=
  tokenText_of_space (by decide) rest

theorem Begins.space (begins : Begins text lexeme rest) : Begins (' ' :: text) lexeme rest := by
  have same : tokenText (' ' :: text) = tokenText text := tokenText_of_space (by decide) text
  exact ⟨by rw [same]; exact begins.first, by rw [same]; exact begins.after⟩

/-- Blanks and comments before a token do not matter. -/
theorem Begins.of_tokenText (begins : Begins (tokenText text) lexeme rest) :
    Begins text lexeme rest := by
  refine ⟨?_, ?_⟩
  · rw [← begins.first, tokenText_tokenText]
  · rw [← begins.after, tokenText_tokenText]

theorem Word.tokenText_append {word : String} (spelled : Word word) (rest : List Char) :
    tokenText (word.toList ++ rest) = word.toList ++ rest := by
  obtain ⟨c, tail, characters⟩ := List.exists_cons_of_ne_nil spelled.ne_nil
  obtain ⟨space, slash, _⟩ := spelled.head_notMem characters
  rw [characters]
  exact tokenText_of_plain space slash _

theorem Word.begins_append {word : String} (spelled : Word word) (ends : namePartLength? rest = none) :
    Begins (word.toList ++ rest) (.word word) rest := by
  have token := spelled.tokenText_append rest
  refine ⟨by rw [token]; exact spelled.first_append ends, ?_⟩
  rw [token]
  exact List.drop_left' String.length_toList

theorem Quotes.tokenText_append {raw : List Char} {mark : Char} (quotes : Quotes raw mark)
    (rest : List Char) : tokenText (raw ++ rest) = raw ++ rest := by
  obtain ⟨inner, rfl, _⟩ := quotes.whole
  rcases quotes.known with rfl | rfl
  · exact tokenText_of_plain (by decide) (by decide) _
  · exact tokenText_of_plain (by decide) (by decide) _

/-- A character that no name goes on with. -/
def BreaksName (c : Char) : Prop := isNamePart c = false ∧ c ≠ '\\'

instance (c : Char) : Decidable (BreaksName c) := inferInstanceAs (Decidable (_ ∧ _))

theorem namePartLength?_of_break {c : Char} (breaks : BreaksName c) (rest : List Char) :
    namePartLength? (c :: rest) = none := by
  rw [namePartLength?, if_neg (by simp [breaks.1])]
  exact fun _ same => absurd same breaks.2

theorem namePartLength?_space (rest : List Char) : namePartLength? (' ' :: rest) = none :=
  namePartLength?_of_break (by decide) rest

/-- A word between blanks. -/
theorem Word.begins_spaced {word : String} (spelled : Word word) (rest : List Char) :
    Begins (' ' :: (word.toList ++ ' ' :: rest)) (.word word) (' ' :: rest) :=
  (spelled.begins_append (namePartLength?_space rest)).space

/-- A mark of one character that does not go on to a longer one. -/
theorem begins_mark (plain : isNamePart c = false ∧ c.isDigit = false ∧ isSpace c = false ∧
      c ∉ ['\\', '.', '\'', '"', '#', '/'])
    (short : longMarks.find? (·.isPrefixOf (c :: rest)) = none) :
    Begins (c :: rest) (.mark (String.singleton c)) rest := by
  obtain ⟨part, digit, space, others⟩ := plain
  simp only [List.mem_cons, List.not_mem_nil, or_false, not_or] at others
  obtain ⟨escape, point, single, double, hash, slash⟩ := others
  have token := tokenText_of_plain space slash rest
  have name : nameLength (c :: rest) = 0 := by
    have none : namePartLength? (c :: rest) = none := by
      rw [namePartLength?, if_neg (by simp [part])]
      exact fun _ same => absurd same escape
    rw [nameLength, namePartsLength, none]
    exact ite_self 0
  have first : Lexeme.first (c :: rest) = .mark (String.singleton c) := by
    simp [Lexeme.first, name, digit, point, single, double, hash, short]
  refine ⟨by rw [token, first], ?_⟩
  rw [token, Lexeme.length, String.length_singleton]
  rfl

theorem Word.begins_point {word : String} (spelled : Word word) (rest : List Char) :
    Begins ('.' :: (word.toList ++ rest)) (.mark ".") (word.toList ++ rest) := by
  have token := tokenText_of_plain (c := '.') (by decide) (by decide) (word.toList ++ rest)
  refine ⟨?_, by rw [token]; rfl⟩
  obtain ⟨c, tail, characters, _, digit⟩ := spelled.begins
  obtain ⟨_, _, point⟩ := spelled.head_notMem characters
  have breaks : isNamePart '.' = false := by decide
  have noDigit : '.'.isDigit = false := by decide
  have short : longMarks.find? (·.isPrefixOf ('.' :: c :: (tail ++ rest))) = none := by
    simp [longMarks, List.isPrefixOf, Ne.symm point]
  rw [token, characters, List.cons_append]
  simp [Lexeme.first, nameLength, namePartsLength, namePartLength?, breaks, noDigit, digit, short]

theorem begins_closing (rest : List Char) : Begins ('\x7d' :: rest) (.mark "\x7d") rest :=
  begins_mark (by decide) (by simp [longMarks])

theorem begins_semicolon (rest : List Char) : Begins (';' :: rest) (.mark ";") rest :=
  begins_mark (by decide) (by simp [longMarks])

theorem begins_comma (rest : List Char) : Begins (',' :: rest) (.mark ",") rest :=
  begins_mark (by decide) (by simp [longMarks])

theorem begins_opening (rest : List Char) : Begins ('\x7b' :: rest) (.mark "\x7b") rest :=
  begins_mark (by decide) (by simp [longMarks])

theorem begins_star (rest : List Char) : Begins ('*' :: ' ' :: rest) (.mark "*") (' ' :: rest) :=
  begins_mark (by decide) (by simp [longMarks])

end Begins

namespace Cursor

/-- The cursor stands before these characters, and nothing else is left of its script. -/
structure Before (c : Cursor) (text : List Char) : Prop where
  rest : c.rest = text
  whole : c.offset + byteLength c.rest = c.size

/-- A token was passed, and these characters come after it. -/
structure Passed (c : Cursor) (rest : List Char) : Prop where
  before : c.Before rest
  settled : c.reached = c.offset

variable {c d : Cursor} {text rest : List Char} {token : Lexeme}

theorem Before.later (before : c.Before text) (leads : c.Leads d) : d.Before d.rest := by
  obtain ⟨passed, characters, bytes⟩ := leads.passed
  have whole := before.whole
  refine ⟨rfl, ?_⟩
  rw [characters, byteLength_append] at whole
  rw [leads.size_eq, bytes]
  omega

theorem Before.length_le (before : c.Before text) : c.rest.length ≤ c.size := by
  have whole := before.whole
  have bytes := length_le_byteLength c.rest
  omega

theorem leads_past (c : Cursor) (count : Nat) : c.Leads (c.past count) :=
  (leads_drop _ _).trans (leads_settle _)

variable (before : c.Before text) (begins : Begins text token rest)

include before begins

theorem Before.lexeme : (c.tokenAfter 0).lexeme = token := by
  rw [lexeme_tokenAfter, before.rest]
  exact begins.first

theorem Before.past : (c.past token.length).Before rest := by
  have later := before.later (c.leads_past token.length)
  have same : (c.past token.length).rest = rest := by
    rw [rest_past, before.rest]
    exact begins.after
  rwa [same] at later

theorem Before.second {next : Lexeme} {after : List Char} (more : Begins rest next after) :
    c.second = next := by
  rw [second_eq, before.rest, begins.first, begins.after]
  exact more.first

end Cursor

theorem takeBytes_whole (text : List Char) : takeBytes (byteLength text) text = text := by
  induction text with
  | nil => rfl
  | cons c rest inductionHypothesis =>
    obtain ⟨size, positive⟩ : ∃ size, c.utf8Size = size + 1 :=
      ⟨c.utf8Size - 1, by have := c.utf8Size_pos; omega⟩
    have bytes : byteLength (c :: rest) = byteLength rest + size + 1 := by
      rw [byteLength_cons, positive]
      omega
    have left : byteLength rest + size + 1 - c.utf8Size = byteLength rest := by
      rw [positive]
      omega
    rw [bytes, takeBytes, left, inductionHypothesis]

/-- Up to a cursor where a token just ended, the text is what was passed. -/
theorem text_of_leads {c d : Cursor} {passed : List Char} (characters : c.rest = passed ++ d.rest)
    (bytes : d.offset = c.offset + byteLength passed) :
    Extent.text ⟨c.offset, c.rest, d.offset⟩ = String.ofList passed := by
  rw [Extent.text, bytes, Nat.add_sub_cancel_left, characters, takeBytes_append (Nat.le_refl _),
    takeBytes_whole]

/-- The text from the next token on, up to a token that was passed. -/
theorem Cursor.Before.text_passed {c d : Cursor} {text front rest : List Char}
    (before : c.Before text) (token : tokenText text = front ++ rest) (leads : c.Leads d)
    (passed : d.Passed rest) :
    Extent.text ⟨(c.tokenAfter 0).offset, (c.tokenAfter 0).rest, d.reached⟩ = String.ofList front := by
  have ahead : (c.tokenAfter 0).rest = front ++ d.rest := by
    rw [Cursor.rest_tokenAfter, before.rest, token, passed.before.rest]
  have whole := (before.later (c.leads_tokenAfter 0)).whole
  have left := passed.before.whole
  rw [ahead, byteLength_append, (c.leads_tokenAfter 0).size_eq, ← leads.size_eq] at whole
  rw [passed.settled]
  exact text_of_leads ahead (by omega)

/-- The text from the next token on, so many characters of it. -/
theorem text_past (c : Cursor) (count : Nat) :
    Extent.text ⟨(c.tokenAfter 0).offset, (c.tokenAfter 0).rest, (c.past count).reached⟩ =
      String.ofList ((tokenText c.rest).take count) := by
  have stop : (c.past count).reached =
      (c.tokenAfter 0).offset + byteLength ((c.tokenAfter 0).rest.take count) := by
    rw [Cursor.past_eq, Cursor.drop_eq]
    rfl
  have taken := @takeBytes_append _ ((c.tokenAfter 0).rest.take count) (Nat.le_refl _)
    ((c.tokenAfter 0).rest.drop count)
  rw [List.take_append_drop, takeBytes_whole] at taken
  rw [Extent.text, stop, ← Cursor.rest_tokenAfter, Nat.add_sub_cancel_left]
  exact congrArg String.ofList taken

theorem text_past_word {c : Cursor} {word : String}
    (first : Lexeme.first (tokenText c.rest) = .word word) :
    Extent.text ⟨(c.tokenAfter 0).offset, (c.tokenAfter 0).rest, (c.past word.length).reached⟩ =
      word := by
  obtain ⟨_, same⟩ := Lexeme.first_eq_word_iff.mp first
  have within := nameLength_le (tokenText c.rest)
  have counted := congrArg String.length same
  rw [String.length_ofList, List.length_take, Nat.min_eq_left within] at counted
  rw [text_past, counted]
  exact same.symm

namespace Scan

variable {α β : Type} {c : Cursor}

/-- The reader does not fail, and its result and the cursor it leaves are like this. -/
def Finds (scan : Scan α) (c : Cursor) (post : α → Cursor → Prop) : Prop :=
  ∃ a d, scan.Reads c a d ∧ post a d

theorem Finds.mono {scan : Scan α} {post weaker : α → Cursor → Prop} (finds : scan.Finds c post)
    (implies : ∀ a d, c.Leads d → post a d → weaker a d) : scan.Finds c weaker := by
  obtain ⟨a, d, reads, holds⟩ := finds
  exact ⟨a, d, reads, implies a d reads.leads holds⟩

theorem Finds.bind {first : Scan α} {next : α → Scan β} {middle : α → Cursor → Prop}
    {post : β → Cursor → Prop} (front : first.Finds c middle)
    (back : ∀ a m, c.Leads m → middle a m → (next a).Finds m post) : (first >>= next).Finds c post := by
  obtain ⟨a, m, reads, holds⟩ := front
  obtain ⟨b, d, more, found⟩ := back a m reads.leads holds
  exact ⟨b, d, reads_bind.mpr ⟨a, m, reads, more⟩, found⟩

theorem finds_pure {a : α} {post : α → Cursor → Prop} (holds : post a c) :
    (pure a : Scan α).Finds c post :=
  ⟨a, c, reads_pure.mpr ⟨rfl, rfl⟩, holds⟩

theorem finds_of_reads {first : Scan α} {next : α → Scan β} {a : α} {m : Cursor}
    {post : β → Cursor → Prop} (reads : first.Reads c a m) (finds : (next a).Finds m post) :
    (first >>= next).Finds c post := by
  obtain ⟨b, d, more, found⟩ := finds
  exact ⟨b, d, reads_bind.mpr ⟨a, m, reads, more⟩, found⟩

theorem finds_last {scan : Scan β} {post : β → Cursor → Prop}
    (finds : (scan >>= pure).Finds c post) : scan.Finds c post := by
  obtain ⟨b, d, reads, holds⟩ := finds
  obtain ⟨_, _, first, last⟩ := reads_bind.mp reads
  obtain ⟨rfl, rfl⟩ := reads_pure.mp last
  exact ⟨_, _, first, holds⟩

theorem finds_given {a : α} {next : α → Scan β} {post : β → Cursor → Prop}
    (finds : (next a).Finds c post) :
    (pure a >>= next).Finds c post :=
  finds_of_reads (reads_pure.mpr ⟨rfl, rfl⟩) finds

variable {post : β → Cursor → Prop}

theorem finds_ahead {next : Cursor → Scan β} (finds : (next (c.tokenAfter 0)).Finds c post) :
    (ahead >>= next).Finds c post :=
  finds_of_reads (reads_ahead.mpr ⟨rfl, rfl⟩) finds

theorem finds_cursor {next : Cursor → Scan β} (finds : (next c).Finds c post) :
    (cursor >>= next).Finds c post :=
  finds_of_reads (reads_cursor.mpr ⟨rfl, rfl⟩) finds

theorem finds_require {condition : Bool} {next : Unit → Scan β} (holds : condition = true)
    (finds : (next ()).Finds c post) : (require condition >>= next).Finds c post :=
  finds_of_reads (reads_require.mpr ⟨holds, rfl⟩) finds

theorem finds_extentFrom {first : Cursor} {next : Extent → Scan β}
    (finds : ∀ extent, extent = ⟨first.offset, first.rest, c.reached⟩ → (next extent).Finds c post) :
    (extentFrom first >>= next).Finds c post :=
  finds_of_reads (reads_extentFrom.mpr ⟨rfl, rfl⟩) (finds _ rfl)

section Tokens

variable {text rest : List Char} {token : Lexeme}

variable (before : c.Before text) (begins : Begins text token rest)

include before begins

theorem finds_next {next : Lexeme → Scan β} (finds : (next token).Finds c post) :
    (Scan.next >>= next).Finds c post :=
  finds_of_reads (reads_next.mpr ⟨(before.lexeme begins).symm, rfl⟩) finds

theorem finds_second {next : Lexeme → Scan β} {other : Lexeme} {after : List Char}
    (more : Begins rest other after) (finds : (next other).Finds c post) :
    (Scan.second >>= next).Finds c post :=
  finds_of_reads (reads_second.mpr ⟨(before.second begins more).symm, rfl⟩) finds

theorem finds_sees {lexeme : Lexeme} {next : Bool → Scan β}
    (finds : (next (token == lexeme)).Finds c post) : (sees lexeme >>= next).Finds c post :=
  finds_of_reads (reads_sees.mpr ⟨by rw [before.lexeme begins], rfl⟩) finds

theorem finds_pass {next : Unit → Scan β}
    (finds : ∀ d, d.Passed rest → (next ()).Finds d post) :
    (pass token.length >>= next).Finds c post :=
  finds_of_reads (reads_pass.mpr rfl) (finds _ ⟨before.past begins, rfl⟩)

theorem finds_accept {next : Bool → Scan β} (finds : ∀ d, d.Passed rest → (next true).Finds d post) :
    (accept token >>= next).Finds c post := by
  refine finds_of_reads (a := true) (m := c.past token.length) ?_ (finds _ ⟨before.past begins, rfl⟩)
  rw [reads_accept, if_pos (before.lexeme begins)]
  exact ⟨rfl, rfl⟩

theorem finds_refuse {lexeme : Lexeme} {next : Bool → Scan β} (other : token ≠ lexeme)
    (finds : (next false).Finds c post) : (accept lexeme >>= next).Finds c post := by
  refine finds_of_reads (a := false) (m := c) ?_ finds
  rw [reads_accept, if_neg (by rw [before.lexeme begins]; exact other)]
  exact ⟨rfl, rfl⟩

theorem finds_expect {next : Unit → Scan β} (finds : ∀ d, d.Passed rest → (next ()).Finds d post) :
    (expect token >>= next).Finds c post := by
  refine finds_of_reads (m := c.past token.length) (a := ()) ?_
    (finds _ ⟨before.past begins, rfl⟩)
  refine reads_bind.mpr ⟨true, _, ?_, reads_require.mpr ⟨rfl, rfl⟩⟩
  rw [reads_accept, if_pos (before.lexeme begins)]
  exact ⟨rfl, rfl⟩

end Tokens

theorem finds_name {word : String} {text rest : List Char} {next : Extent → Scan β}
    (before : c.Before text) (begins : Begins text (.word word) rest) (named : isName word = true)
    (finds : ∀ extent d, extent.text = word → d.Passed rest → (next extent).Finds d post) :
    (name >>= next).Finds c post := by
  have first : Lexeme.first (tokenText c.rest) = .word word := by
    rw [before.rest]
    exact begins.first
  have found : (c.tokenAfter 0).lexeme = .word word := before.lexeme begins
  refine finds_of_reads (m := c.past word.length) ?_
    (finds _ _ (text_past_word first) ⟨before.past begins, rfl⟩)
  refine reads_bind.mpr ⟨_, _, reads_ahead.mpr ⟨rfl, rfl⟩, ?_⟩
  rw [found]
  exact reads_bind.mpr ⟨(), _, reads_require.mpr ⟨named, rfl⟩,
    reads_bind.mpr ⟨(), _, reads_pass.mpr rfl, reads_extentFrom.mpr ⟨rfl, rfl⟩⟩⟩

theorem finds_quotedText {text raw rest : List Char} {mark : Char} {next : Extent → Scan β}
    (before : c.Before text) (token : tokenText text = raw ++ rest) (quotes : Quotes raw mark)
    (finds : ∀ extent d, extent.text = String.ofList raw → d.Passed rest → (next extent).Finds d post) :
    (quotedText >>= next).Finds c post := by
  have here : (c.tokenAfter 0).rest = raw ++ rest := by rw [Cursor.rest_tokenAfter, before.rest, token]
  have found : (c.tokenAfter 0).lexeme = .quote mark := by
    rw [Cursor.lexeme, here, quotes.first_append]
  have characters : String.ofList ((tokenText c.rest).take raw.length) = String.ofList raw := by
    rw [before.rest, token, List.take_left]
  have passed : Cursor.Passed (c.past raw.length) rest := by
    have later := before.later (c.leads_past raw.length)
    have left : (c.past raw.length).rest = rest := by
      rw [Cursor.rest_past, before.rest, token, List.drop_left]
    exact ⟨by rwa [left] at later, rfl⟩
  refine finds_of_reads (m := c.past raw.length) ?_
    (finds _ _ ((text_past c raw.length).trans characters) passed)
  refine reads_bind.mpr ⟨_, _, reads_ahead.mpr ⟨rfl, rfl⟩, ?_⟩
  have measured : quotedLength? mark 1 0 ((c.tokenAfter 0).rest.drop 1) = some raw.length := by
    rw [here, quotes.length_append]
  rw [found]
  dsimp only
  rw [measured]
  exact reads_bind.mpr ⟨(), _, reads_pass.mpr rfl, reads_extentFrom.mpr ⟨rfl, rfl⟩⟩

end Scan

/-- No statement ends before these characters. -/
inductive GoesOn : List Char → Prop where
  | here {c : Char} {rest : List Char} (plain : c ≠ '\x7d' ∧ c ≠ '/' ∧ isSpace c = false) :
      GoesOn (c :: rest)
  | space {text : List Char} : GoesOn text → GoesOn (' ' :: text)

theorem GoesOn.commentLength? {text : List Char} (goesOn : GoesOn text) :
    commentLength? text = none := by
  have token : ∃ c rest, text.drop (text.takeWhile isSpace).length = c :: rest ∧ c ≠ '/' := by
    induction goesOn with
    | @here c rest plain => exact ⟨c, rest, by simp [plain.2.2], plain.2.1⟩
    | space _ inductionHypothesis =>
      have blank : isSpace ' ' = true := by decide
      simpa [blank] using inductionHypothesis
  obtain ⟨c, rest, ahead, slash⟩ := token
  unfold Script.commentLength?
  dsimp only
  rw [ahead]
  split
  · next same => exact absurd (List.cons.inj same).1 slash
  · next same => exact absurd (List.cons.inj same).1 slash
  · rfl

theorem GoesOn.lineEndsFrom {text : List Char} (goesOn : GoesOn text) (complete : Bool) (n : Nat) :
    lineEndsFrom complete n text = false := by
  induction goesOn generalizing n with
  | @here c rest plain =>
    obtain ⟨brace, slash, space⟩ := plain
    have noBlank : isLineBlank c = false :=
      Bool.eq_false_iff.mpr fun blank => by simp [isSpace_of_isLineBlank blank] at space
    have noBreak : isLineBreak c = false := by
      refine Bool.eq_false_iff.mpr fun breaks => ?_
      rw [isSpace_of_isLineEnd (isLineEnd_iff.mpr (.inl breaks))] at space
      cases space
    cases n with
    | zero => rfl
    | succ n => simp [lineEndsFrom_succ, endsOnLine, slash, brace, noBlank, noBreak]
  | @space rest _ inductionHypothesis =>
    have blank : isLineBlank ' ' = true := by decide
    have noBreak : isLineBreak ' ' = false := by decide
    cases n with
    | zero => rfl
    | succ n => simp [lineEndsFrom_succ, endsOnLine, blank, noBreak, inductionHypothesis]

theorem Word.goesOn {word : String} (spelled : Word word) (rest : List Char) :
    GoesOn (word.toList ++ rest) := by
  obtain ⟨c, tail, characters, part, _⟩ := spelled.begins
  obtain ⟨space, slash, _⟩ := spelled.head_notMem characters
  rw [characters]
  refine .here ⟨?_, slash, space⟩
  rintro rfl
  revert part
  decide

theorem goesOn_semicolon (rest : List Char) : GoesOn (';' :: rest) := .here (by decide)

namespace Scan

variable {β : Type} {c : Cursor} {text : List Char} {post : β → Cursor → Prop}

section Onward

variable (before : c.Before text) (goesOn : GoesOn text)

include before goesOn

theorem reads_lineEnd_of_goesOn (complete : Bool) : (lineEnd complete).Reads c false c := by
  refine reads_bind.mpr ⟨c, c, reads_cursor.mpr ⟨rfl, rfl⟩, ?_⟩
  refine reads_bind.mpr ⟨c, c, reads_cursor.mpr ⟨rfl, rfl⟩, ?_⟩
  rw [before.rest, goesOn.lineEndsFrom, goesOn.commentLength?]
  exact reads_pure.mpr ⟨rfl, rfl⟩

theorem finds_lineEnd {complete : Bool} {next : Bool → Scan β} (finds : (next false).Finds c post) :
    (lineEnd complete >>= next).Finds c post :=
  finds_of_reads (reads_lineEnd_of_goesOn before goesOn complete) finds

theorem finds_takeLineEnd {complete : Bool} {next : Bool → Scan β} (finds : (next false).Finds c post) :
    (takeLineEnd complete >>= next).Finds c post :=
  finds_of_reads (reads_bind.mpr ⟨false, c, reads_lineEnd_of_goesOn before goesOn complete,
    reads_pure.mpr ⟨rfl, rfl⟩⟩) finds

theorem finds_stops {mode : Mode} {next : Bool → Scan β} (finds : (next false).Finds c post) :
    (Readers.stops mode >>= next).Finds c post := by
  unfold Readers.stops
  split
  · exact finds_lineEnd before goesOn finds
  · exact finds_of_reads (reads_pure.mpr ⟨rfl, rfl⟩) finds

end Onward

/-- A semicolon that is written ends a statement. -/
theorem finds_semicolon {rest : List Char} {complete : Bool} {next : Unit → Scan β}
    (before : c.Before (';' :: rest)) (finds : ∀ d, d.Passed rest → (next ()).Finds d post) :
    (semicolon complete >>= next).Finds c post := by
  obtain ⟨d, reads, passed⟩ : ∃ d, (semicolon complete).Reads c () d ∧ d.Passed rest := by
    obtain ⟨_, d, reads, passed⟩ : (semicolon complete).Finds c fun _ d => d.Passed rest :=
      finds_takeLineEnd before (goesOn_semicolon rest) <| finds_last <|
        finds_expect before (begins_semicolon rest) fun d passed => finds_pure passed
    exact ⟨d, reads, passed⟩
  exact finds_of_reads reads (finds d passed)

end Scan

end ImportRedirect.Script
