import ImportRedirect.Proofs.Script.Rereading.Declaration

/-!
What a draft writes is read as one statement, whatever comes after it, and the node of that statement is
the node of the draft, places aside.
-/

namespace ImportRedirect.Script

open Node Value

namespace Draft

open Scan Readers

variable {c : Cursor} {rest : List Char}

section Statements

variable {n : Nat}

/-- A word that begins neither a function nor a class begins a declaration only as a keyword. -/
theorem declaration?_of_word (read : Readers) {word : String}
    (found : (c.tokenAfter 0).lexeme = .word word)
    (plain : word ∉ ["async", "function", "class"])
    (onward : word = "let" → mayStandAlone (c.tokenAfter 0) = false) :
    read.declaration? (c.tokenAfter 0) true = (do
      match ← binder? with
      | some binder => return some (← read.declarationFrom (c.tokenAfter 0) binder)
      | none => pure none) := by
  have again : ((c.tokenAfter 0).tokenAfter 0).lexeme = .word word := by
    rw [Cursor.lexeme_tokenAfter, Cursor.rest_tokenAfter, tokenText_tokenText,
      ← Cursor.lexeme_tokenAfter, found]
  simp only [List.mem_cons, List.not_mem_nil, or_false, not_or] at plain
  have noFunction : namesFunction (c.tokenAfter 0) 0 = false := by
    simp [namesFunction, again, plain.2.1]
  have noClass : namesClass (c.tokenAfter 0) = false := by
    simp [namesClass, found, plain.2.2]
  have noName : standsAlone (c.tokenAfter 0) true = false := by
    by_cases lexical : word = "let"
    · simp [standsAlone, onward lexical]
    · simp [standsAlone, found, plain.1, lexical]
  simp only [declaration?, noFunction, noClass, noName, found, Bool.false_eq_true, if_false]
  rw [if_neg (by simp [plain.1])]
  rfl

/-- A word is no statement by itself when the line goes on after it. -/
theorem mayStandAlone_of_goesOn {word : String} {text after : List Char} (goesOn : GoesOn after)
    (before : c.Before text) (begins : Begins text (.word word) after) :
    mayStandAlone (c.tokenAfter 0) = false := by
  have ahead : ((c.tokenAfter 0).drop (c.tokenAfter 0).lexeme.length).rest = after := by
    rw [Cursor.rest_drop, before.lexeme begins, Cursor.rest_tokenAfter, before.rest, begins.after]
  rw [mayStandAlone, ahead, lineEndsWithin, goesOn.lineEndsFrom, goesOn.commentLength?]
  rfl

theorem finds_requiring {text : List Char} (binder : Binder) (target : Name) (callee : Callee)
    (argument : Quotation) (member : Option Name) (before : c.Before text)
    (begins : Begins text (.word binder.name)
      (' ' :: (declarationText target callee argument member ++ rest))) :
    ((reader (n + 2)).statement).Finds c fun statement d =>
      statement.Means (.requiring binder target callee argument member) ∧ d.Passed rest := by
  have found := before.lexeme begins
  have goesOn : GoesOn (' ' :: (declarationText target callee argument member ++ rest)) := by
    rw [declarationText, List.append_assoc]
    exact .space (target.readable.word.goesOn _)
  have declared := declaration?_of_word (reader (n + 2)) found (by cases binder <;> decide)
    fun _ => mayStandAlone_of_goesOn goesOn before begins
  obtain ⟨after, targets⟩ : ∃ after, Begins
      (' ' :: (declarationText target callee argument member ++ rest)) (.word target.text) after := by
    rw [declarationText, List.append_assoc]
    exact ⟨_, target.readable.word.begins_spaced _⟩
  have binds : binder?.Finds c fun found d => found = some binder ∧ d = c := by
    refine finds_next before begins ?_
    cases binder with
    | constant => exact finds_pure ⟨rfl, rfl⟩
    | «variable» => exact finds_pure ⟨rfl, rfl⟩
    | lexical =>
      refine finds_second before begins targets (finds_pure ⟨?_, rfl⟩)
      rw [if_pos target.readable.name]
  have declaration : ((reader (n + 2)).declaration? (c.tokenAfter 0) true).Finds c fun result d =>
      ∃ statement, result = some statement ∧
        statement.Means (.requiring binder target callee argument member) ∧ d.Passed rest := by
    rw [declared]
    refine binds.bind fun found d _ same => ?_
    obtain ⟨rfl, rfl⟩ := same
    refine (finds_declarationFrom binder target callee argument member before begins).bind
      fun statement d _ known => ?_
    exact finds_pure ⟨statement, rfl, known⟩
  refine finds_ahead ?_
  rw [found]
  refine declaration.bind ?_
  rintro _ d _ ⟨statement, rfl, known⟩
  exact finds_pure known

theorem finds_importing {text : List Char} (clause : Clause) (source : Quotation)
    (attributes : Option Attributes) (legible : ∀ given ∈ attributes, given.Legible n rest)
    (before : c.Before text) (begins : Begins text (.word "import")
      (' ' :: (importingText clause source attributes ++ rest))) :
    ((reader n).statement).Finds c fun statement d =>
      statement.Means (.importing clause source attributes) ∧ d.Passed rest := by
  have found := before.lexeme begins
  obtain ⟨token, after, follows, kinds⟩ : ∃ token after,
      Begins (' ' :: (importingText clause source attributes ++ rest)) token after ∧
        ((∃ word, token = .word word) ∨ token = .mark "*" ∨ token = .mark "\x7b") := by
    rw [importingText_append]
    exact clause.begins _
  have declared := declaration?_of_word (reader n) found (by decide)
    fun same => absurd same (by decide)
  have none : binder?.Finds c fun found d => found = none ∧ d = c :=
    finds_next before begins (finds_pure ⟨rfl, rfl⟩)
  have imports : ((reader n).importDeclaration (c.tokenAfter 0)).Finds c fun statement d =>
      statement.Means (.importing clause source attributes) ∧ d.Passed rest :=
    finds_importDeclaration clause source attributes legible before begins
  have noDeclaration : ((reader n).declaration? (c.tokenAfter 0) true).Finds c fun result d =>
      result = .none ∧ d = c := by
    rw [declared]
    refine none.bind fun found d _ same => ?_
    obtain ⟨rfl, rfl⟩ := same
    exact finds_pure ⟨rfl, rfl⟩
  refine finds_ahead ?_
  rw [found]
  refine noDeclaration.bind ?_
  rintro _ d _ ⟨rfl, rfl⟩
  refine finds_second before begins follows ?_
  rcases kinds with ⟨_, rfl⟩ | rfl | rfl
  · exact imports
  · exact imports
  · exact imports

section Written

theorem intercalate_names (items : List Import) :
    (", ".intercalate (items.map Import.text)).toList = namesText items := by
  rw [String.toList_intercalate]
  induction items with
  | nil => rfl
  | cons item others inductionHypothesis =>
    cases others with
    | nil => simp [namesText]
    | cons second others =>
      rw [namesText, ← inductionHypothesis]
      · simp
      · simp

theorem clause_written (clause : Clause) : (", ".intercalate clause.parts).toList = clauseText clause := by
  rw [String.toList_intercalate]
  cases clause with
  | fallback localName => simp [Clause.parts, clauseText]
  | whole localName =>
    have part : s!"* as {localName.text}" = "* as " ++ localName.text := rfl
    simp [Clause.parts, clauseText, part]
  | names first others =>
    have names := intercalate_names (first :: others)
    simp [Clause.parts, clauseText, ← names]

theorem importing_written (clause : Clause) (source : Quotation) (attributes : Option Attributes) :
    (Draft.importing clause source attributes).text.toList =
      "import".toList ++ ' ' :: importingText clause source attributes := by
  have some : clause.parts.isEmpty = false := by cases clause <;> rfl
  have text : (Draft.importing clause source attributes).text =
      "import " ++ ", ".intercalate clause.parts ++ " from " ++ source.raw ++
        (attributes.map (" " ++ ·.text)).getD "" ++ ";" := by
    rw [Draft.text, Emit.importText, some]
    rfl
  have ends : ((attributes.map (" " ++ ·.text)).getD "").toList = attributesText attributes := by
    cases attributes <;> simp [attributesText]
  have names := clause_written clause
  simp [text, importingText, ends, ← names]

theorem requiring_written (binder : Binder) (target : Name) (callee : Callee) (argument : Quotation)
    (member : Option Name) : (Draft.requiring binder target callee argument member).text.toList =
      binder.name.toList ++ ' ' :: declarationText target callee argument member := by
  have text : (Draft.requiring binder target callee argument member).text =
      binder.name ++ " " ++ (target.text ++ " = " ++ valueText callee argument member) ++ ";" := rfl
  have value : (valueText callee argument member).toList =
      callee.text.toList ++ '(' :: (argument.raw.toList ++ ')' :: memberText member) := by
    have call : s!"{callee.text}({argument.raw})" = callee.text ++ "(" ++ argument.raw ++ ")" := rfl
    cases member with
    | none => simp [valueText, memberText, call]
    | some name => simp [valueText, memberText, call]
  simp [text, declarationText, value]

end Written

/-- The attributes that a draft writes are short enough to be read with it. -/
theorem length_object_le (draft : Draft) {given : Attributes} (known : draft.attributes? = some given) :
    given.object.length ≤ draft.text.length := by
  cases draft with
  | importing clause source attributes =>
    obtain rfl : attributes = some given := known
    rw [← String.length_toList, importing_written]
    simp only [importingText, attributesText, Attributes.text, List.length_append, List.length_cons,
      String.toList_ofList]
    omega
  | requiring => cases known

/-- The words with which drafts begin. -/
theorem begins_text (draft : Draft) : ∃ word ∈ ["import", "const", "let", "var"], ∃ rest,
    draft.text.toList = word.toList ++ ' ' :: rest := by
  cases draft with
  | importing clause source attributes =>
    exact ⟨"import", by decide, _, importing_written clause source attributes⟩
  | requiring binder target callee argument member =>
    exact ⟨binder.name, by cases binder <;> decide, _,
      requiring_written binder target callee argument member⟩

theorem word_of_keyword {word : String} (known : word ∈ ["import", "const", "let", "var"]) :
    Word word := by
  have each : ∀ word ∈ ["import", "const", "let", "var"], Word word := by decide
  exact each word known

theorem begins_keyword {word : String} (known : word ∈ ["import", "const", "let", "var"])
    (rest : List Char) : Begins (word.toList ++ ' ' :: rest) (.word word) (' ' :: rest) :=
  (word_of_keyword known).begins_append (namePartLength?_space rest)

/-- What a draft writes is read as what it means, wherever it stands. -/
theorem finds_statement {text : List Char} (draft : Draft) (deep : 1 < n)
    (legible : ∀ given ∈ draft.attributes?, given.Legible n rest) (before : c.Before text)
    (token : tokenText text = draft.text.toList ++ rest) :
    ((reader n).statement).Finds c fun statement d => statement.Means draft ∧ d.Passed rest := by
  have begins : ∀ {word after}, word ∈ ["import", "const", "let", "var"] →
      draft.text.toList = word.toList ++ ' ' :: after → Begins text (.word word) (' ' :: (after ++ rest)) := by
    intro word after known written
    refine Begins.of_tokenText ?_
    rw [token, written, List.append_assoc]
    exact begins_keyword known _
  cases draft with
  | importing clause source attributes =>
    exact finds_importing clause source attributes legible before
      (begins (by decide) (importing_written clause source attributes))
  | requiring binder target callee argument member =>
    obtain ⟨n, rfl⟩ : ∃ rest, n = rest + 2 := ⟨n - 2, by omega⟩
    exact finds_requiring binder target callee argument member before
      (begins (by cases binder <;> decide) (requiring_written binder target callee argument member))

theorem finds_script (draft : Draft) (before : c.Before draft.text.toList) (deep : 1 < n)
    (legible : ∀ given ∈ draft.attributes?, given.Legible n []) :
    (scriptWith (reader (n + 1))).Finds c fun statements _ =>
      ∃ statement, statements = [statement] ∧ statement.Means draft := by
  obtain ⟨word, known, rest, text⟩ := draft.begins_text
  have begins : Begins draft.text.toList (.word word) (' ' :: rest) := by
    rw [text]
    exact begins_keyword known rest
  have noLine : passInterpreterLine.Finds c fun _ d => d = c := by
    refine finds_ahead ?_
    rw [Cursor.rest_tokenAfter, before.rest, text, (word_of_keyword known).tokenText_append]
    simp only [List.mem_cons, List.not_mem_nil, or_false] at known
    rcases known with rfl | rfl | rfl | rfl
    all_goals exact finds_pure rfl
  refine noLine.bind fun _ d _ same => finds_last ?_
  obtain rfl := same
  have token : tokenText draft.text.toList = draft.text.toList ++ [] := by
    rw [text, (word_of_keyword known).tokenText_append, List.append_nil]
  have one : (do if ← sees .finish then pure none else return some (← reader (n + 1) .statement) :
      Scan (Option Statement)).Finds d fun result e =>
        ∃ statement, result = some statement ∧ statement.Means draft ∧ e.Passed [] := by
    refine finds_sees before begins ?_
    refine (draft.finds_statement deep legible before token).bind fun statement e _ known => ?_
    exact finds_pure ⟨statement, rfl, known⟩
  obtain ⟨_, e, first, statement, rfl, means, passed⟩ := one
  have finish : (do if ← sees .finish then pure none else return some (← reader (n + 1) .statement) :
      Scan (Option Statement)).Finds e fun result _ => result = none :=
    finds_sees passed.before (⟨rfl, rfl⟩ : Begins [] .finish []) (finds_pure rfl)
  obtain ⟨_, m, last, rfl⟩ := finish
  have some : 1 ≤ d.size := by
    have within := before.length_le
    rw [before.rest, text, List.length_append, List.length_cons] at within
    omega
  exact finds_of_reads ((Repeats.more first .stop).many last some)
    (finds_pure ⟨statement, rfl, means⟩)

/-- What a draft writes is a script of one statement, which is what the draft means. -/
theorem parse_text (draft : Draft)
    (ends : ∀ given ∈ draft.attributes?, endsLines given.object = true) :
    ∃ tree node, parse draft.text = .ok tree ∧ tree.body = [node] ∧ node.unplaced = draft.node := by
  have before : (Cursor.start draft.text.toList).Before draft.text.toList :=
    ⟨rfl, by simp [Cursor.start]⟩
  have legible : ∀ given ∈ draft.attributes?, given.Legible (2 * draft.text.length + 15) [] := by
    intro given known
    have short := draft.length_object_le known
    exact ⟨by omega, ends given known, .inr fun _ => by decide⟩
  obtain ⟨_, d, ⟨leads, reads⟩, statement, rfl, node, found, same⟩ :=
    draft.finds_script before (by omega) legible
  refine ⟨⟨[statement], byteLength draft.text.toList⟩, node, ?_, ?_, same⟩
  · rw [parse, String.length_toList, reads]
  · simp [Tree.body, found]

end Statements

end Draft

end ImportRedirect.Script
