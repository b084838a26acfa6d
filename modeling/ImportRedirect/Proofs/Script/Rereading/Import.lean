import ImportRedirect.Proofs.Script.Draft

/-!
Drafted imports are read as what they mean: each reader passes what was written for it, whatever comes
after the import.
-/

namespace ImportRedirect.Script

open Node Value

/-- The statement is the one that was drafted, places aside. -/
def Statement.Means (statement : Statement) (draft : Draft) : Prop :=
  ∃ node, statement.node? = some node ∧ node.unplaced = draft.node

namespace Draft

open Scan Readers

variable {c : Cursor} {rest : List Char}

section Importing

theorem finds_fromClause (source : Quotation)
    (before : c.Before (' ' :: ("from".toList ++ ' ' :: (source.raw.toList ++ rest)))) :
    fromClause.Finds c fun extent d => extent.text = source.raw ∧ d.Passed rest := by
  obtain ⟨mark, quotes⟩ := source.quotes
  have word : Word "from" := by decide
  refine finds_expect before (word.begins_spaced _) fun m passed => finds_last ?_
  have token : tokenText (' ' :: (source.raw.toList ++ rest)) = source.raw.toList ++ rest := by
    rw [tokenText_blank, quotes.tokenText_append]
  refine finds_quotedText passed.before token quotes fun extent d written passed => finds_pure ?_
  exact ⟨by rw [written, String.ofList_toList], passed⟩

theorem unplaced_named {place localName : Extent} {imported : Expr} {item : Import}
    (exported : imported.node.unplaced = item.exported.node)
    (written : localName.text = item.localName.text) :
    (Specifier.named place imported localName).node.unplaced = item.node := by
  rw [Specifier.node, unplaced_located]
  simp only [unplacedFields, exported, unplaced_nameNode, written]
  rfl

/-- The new name of what is imported, after the word. -/
theorem finds_renamed {first : Cursor} {imported : Expr} {item : Import}
    (exported : imported.node.unplaced = item.exported.node) (ends : namePartLength? rest = none)
    (before : c.Before (' ' :: ("as".toList ++ ' ' :: (item.localName.text.toList ++ rest)))) :
    (do
      expectWord "as"
      let localName ← name
      return Specifier.named (← extentFrom first) imported localName).Finds c
        fun specifier d => specifier.node.unplaced = item.node ∧ d.Passed rest := by
  have word : Word "as" := by decide
  refine finds_expect before (word.begins_spaced _) fun m passed => ?_
  refine finds_name passed.before (item.localName.readable.word.begins_append ends).space
    item.localName.readable.name fun extent d written passed => ?_
  exact finds_extentFrom fun place _ => finds_pure ⟨unplaced_named exported written, passed⟩

/-- What is not written as a name has a new one. -/
theorem Import.text_cases (item : Import) :
    (∃ name, item.exported = .named name ∧ item.localName.text = name.text ∧ item.text = name.text) ∨
      item.text.toList = item.exported.text.toList ++
        ' ' :: ("as".toList ++ ' ' :: item.localName.text.toList) := by
  by_cases same : item.exported.text = item.localName.text
  · left
    obtain ⟨exported, localName⟩ := item
    cases exported with
    | default =>
      have known : isName "default" = false := by decide
      have named := localName.readable.name
      rw [← show "default" = localName.text from same, known] at named
      cases named
    | named name => exact ⟨name, rfl, same.symm, by rw [Import.text, Emit.renamed, if_pos same]; rfl⟩
    | quoted quotation =>
      obtain ⟨mark, quotes⟩ := quotation.quotes
      have quote : Lexeme.first quotation.raw.toList = .quote mark := by
        simpa using quotes.first_append []
      have word : Lexeme.first localName.text.toList = .word localName.text := localName.readable.word
      rw [← show quotation.raw = localName.text from same, quote] at word
      cases word
  · right
    have text : item.text = item.exported.text ++ " as " ++ item.localName.text := by
      rw [Import.text, Emit.renamed, if_neg same]
      rfl
    simp [text, String.toList_append]

theorem finds_importSpecifier (item : Import) {mark : String} {after : List Char}
    (ends : namePartLength? rest = none) (follows : Begins rest (.mark mark) after)
    (before : c.Before (' ' :: (item.text.toList ++ rest))) :
    importSpecifier.Finds c fun specifier d => specifier.node.unplaced = item.node ∧ d.Passed rest := by
  have ordinary : ∀ name : Name, (Lexeme.word name.text == .word "default") = false := by
    intro name
    refine beq_false_of_ne fun same => ?_
    have named := name.readable.name
    rw [Lexeme.word.inj same] at named
    revert named
    decide
  refine finds_ahead ?_
  rcases item.text_cases with ⟨name, exported, same, text⟩ | text
  · rw [text] at before
    have begins := (name.readable.word.begins_append ends).space
    rw [before.lexeme begins]
    simp only [ordinary, Bool.false_eq_true, if_false]
    refine finds_name before begins name.readable.name fun extent d written passed => ?_
    refine finds_sees passed.before follows (finds_pure ⟨unplaced_named ?_ ?_, passed⟩)
    · rw [exported, Expr.node, unplaced_nameNode, written]
      rfl
    · rw [written, same]
  · rw [text, List.append_assoc] at before
    cases exported : item.exported with
    | default =>
      have word : Word "default" := by decide
      have before : c.Before (' ' :: ("default".toList ++
          ' ' :: ("as".toList ++ ' ' :: (item.localName.text.toList ++ rest)))) := by
        simpa [exported, Export.text] using before
      have begins := word.begins_spaced
        ("as".toList ++ ' ' :: (item.localName.text.toList ++ rest))
      have passes : (pass 7).Finds c fun _ m =>
          m.Passed (' ' :: ("as".toList ++ ' ' :: (item.localName.text.toList ++ rest))) :=
        finds_last (finds_pass before begins fun m passed => finds_pure passed)
      rw [before.lexeme begins]
      simp only [BEq.rfl, if_true]
      refine passes.bind fun _ m leads passed => finds_extentFrom fun extent known => ?_
      have token := (tokenText_blank _).trans (word.tokenText_append
        (' ' :: ("as".toList ++ ' ' :: (item.localName.text.toList ++ rest))))
      have written := before.text_passed token leads passed
      refine finds_renamed ?_ ends passed.before
      rw [exported, Expr.node, unplaced_nameNode, known, written]
      rfl
    | named name =>
      have before : c.Before (' ' :: (name.text.toList ++
          ' ' :: ("as".toList ++ ' ' :: (item.localName.text.toList ++ rest)))) := by
        simpa [exported, Export.text] using before
      have word : Word "as" := by decide
      have begins := name.readable.word.begins_spaced
        ("as".toList ++ ' ' :: (item.localName.text.toList ++ rest))
      rw [before.lexeme begins]
      simp only [ordinary, Bool.false_eq_true, if_false]
      refine finds_name before begins name.readable.name fun extent m written passed => ?_
      refine finds_sees passed.before (word.begins_spaced _) ?_
      simp only [BEq.rfl, if_true]
      refine finds_renamed ?_ ends passed.before
      rw [exported, Expr.node, unplaced_nameNode, written]
      rfl
    | quoted quotation =>
      obtain ⟨mark, quotes⟩ := quotation.quotes
      have before : c.Before (' ' :: (quotation.raw.toList ++
          ' ' :: ("as".toList ++ ' ' :: (item.localName.text.toList ++ rest)))) := by
        simpa [exported, Export.text] using before
      have token := (tokenText_blank _).trans (quotes.tokenText_append
        (' ' :: ("as".toList ++ ' ' :: (item.localName.text.toList ++ rest))))
      have quote : (c.tokenAfter 0).lexeme = .quote mark := by
        rw [Cursor.lexeme_tokenAfter, before.rest, token, quotes.first_append]
      rw [quote]
      refine finds_quotedText before token quotes fun extent m written passed => ?_
      refine finds_renamed ?_ ends passed.before
      rw [exported, Expr.node, unplaced_textNode (written.trans String.ofList_toList)]
      rfl

/-- Imports with commas between them. -/
def namesText : List Import → List Char
  | [] => []
  | [item] => item.text.toList
  | item :: others => item.text.toList ++ ',' :: ' ' :: namesText others

theorem Import.begins (item : Import) (ends : namePartLength? rest = none) :
    ∃ token after, Begins (item.text.toList ++ rest) token after ∧ ∀ mark, token ≠ .mark mark := by
  have spaced := fun after => namePartLength?_space ("as".toList ++ ' ' :: after)
  rcases item.text_cases with ⟨name, _, _, text⟩ | text
  · rw [text]
    exact ⟨_, _, name.readable.word.begins_append ends, by simp⟩
  · rw [text, List.append_assoc]
    cases item.exported with
    | default =>
      have word : Word "default" := by decide
      exact ⟨_, _, word.begins_append (namePartLength?_space _), by simp⟩
    | named name => exact ⟨_, _, name.readable.word.begins_append (namePartLength?_space _), by simp⟩
    | quoted quotation =>
      obtain ⟨mark, quotes⟩ := quotation.quotes
      exact ⟨_, _, ⟨by rw [Export.text, quotes.tokenText_append, quotes.first_append], rfl⟩, by simp⟩

/-- An item of a list, where a comma is passed but the closing mark is not. -/
theorem finds_itemBefore (item : Import) {mark : String} {tail after next : List Char}
    (ends : namePartLength? tail = none) (follows : Begins tail (.mark mark) after)
    (goes : mark = "\x7d" ∧ next = tail ∨ mark = "," ∧ next = after)
    (before : c.Before (' ' :: (item.text.toList ++ tail))) :
    (itemBefore "\x7d" importSpecifier).Finds c fun result d =>
      ∃ specifier, result = some specifier ∧ specifier.node.unplaced = item.node ∧
        d.Passed next := by
  obtain ⟨token, others, begins, noMark⟩ := item.begins ends
  refine finds_refuse before begins.space (noMark _) ?_
  simp only [Bool.false_eq_true, if_false]
  refine (finds_importSpecifier item ends follows before).bind fun specifier m _ known => ?_
  refine finds_sees known.2.before follows ?_
  rcases goes with ⟨rfl, rfl⟩ | ⟨rfl, rfl⟩
  · exact finds_given (finds_pure ⟨specifier, rfl, known⟩)
  · refine finds_expect known.2.before follows fun d passed => ?_
    exact finds_pure ⟨specifier, rfl, known.1, passed⟩

/-- The names of an import are read one by one, up to the closing mark. -/
theorem repeats_names {items : List Import} (some : items ≠ [])
    (before : c.Before (' ' :: (namesText items ++ ' ' :: '\x7d' :: rest))) :
    ∃ specifiers d, (itemBefore "\x7d" importSpecifier).Repeats c specifiers d ∧
      specifiers.map (·.node.unplaced) = items.map Import.node ∧ d.Passed (' ' :: '\x7d' :: rest) := by
  induction items generalizing c with
  | nil => exact absurd rfl some
  | cons item others inductionHypothesis =>
    cases others with
    | nil =>
      obtain ⟨_, d, reads, specifier, rfl, node, passed⟩ := finds_itemBefore item
        (namePartLength?_space _) (begins_closing rest).space (.inl ⟨rfl, rfl⟩) before
      exact ⟨[specifier], d, .more reads .stop, by simp [node], passed⟩
    | cons second others =>
      have before : c.Before (' ' :: (item.text.toList ++
          ',' :: ' ' :: (namesText (second :: others) ++ ' ' :: '\x7d' :: rest))) := by
        simpa [namesText] using before
      obtain ⟨_, m, reads, specifier, rfl, node, onward⟩ := finds_itemBefore item
        (namePartLength?_of_break (by decide) _) (begins_comma _) (.inr ⟨rfl, rfl⟩) before
      obtain ⟨specifiers, d, more, nodes, passed⟩ := inductionHypothesis (by simp) onward.before
      exact ⟨specifier :: specifiers, d, .more reads more, by rw [List.map_cons, node, nodes]; rfl, passed⟩

def clauseText : Clause → List Char
  | .fallback localName => localName.text.toList
  | .whole localName => '*' :: ' ' :: ("as".toList ++ ' ' :: localName.text.toList)
  | .names first others => '\x7b' :: ' ' :: (namesText (first :: others) ++ [' ', '\x7d'])

theorem Clause.begins (clause : Clause) (rest : List Char) :
    ∃ token after, Begins (' ' :: (clauseText clause ++ ' ' :: rest)) token after ∧
      ((∃ word, token = .word word) ∨ token = .mark "*" ∨ token = .mark "\x7b") := by
  cases clause with
  | fallback localName => exact ⟨_, _, localName.readable.word.begins_spaced rest, .inl ⟨_, rfl⟩⟩
  | whole localName => exact ⟨_, _, (begins_star _).space, .inr (.inl rfl)⟩
  | names first others => exact ⟨_, _, (begins_opening _).space, .inr (.inr rfl)⟩

theorem finds_importClause (clause : Clause)
    (before : c.Before (' ' :: (clauseText clause ++ ' ' :: ("from".toList ++ ' ' :: rest)))) :
    importClause.Finds c fun specifiers d => specifiers.map (·.node.unplaced) = clause.nodes ∧
      d.Passed (' ' :: ("from".toList ++ ' ' :: rest)) := by
  have word : Word "from" := by decide
  cases clause with
  | fallback localName =>
    have begins := localName.readable.word.begins_spaced ("from".toList ++ ' ' :: rest)
    refine finds_next before begins ?_
    refine finds_name before begins localName.readable.name fun extent m written passed => ?_
    refine finds_refuse passed.before (word.begins_spaced rest) (by simp) ?_
    refine finds_pure ⟨?_, passed⟩
    rw [List.map_singleton, Specifier.node, unplaced_located]
    simp only [unplacedFields, unplaced_nameNode, written]
    rfl
  | whole localName =>
    have before : c.Before (' ' :: '*' :: ' ' :: ("as".toList ++
        ' ' :: (localName.text.toList ++ ' ' :: ("from".toList ++ ' ' :: rest)))) := by
      simpa [clauseText] using before
    have star := (begins_star ("as".toList ++
        ' ' :: (localName.text.toList ++ ' ' :: ("from".toList ++ ' ' :: rest)))).space
    have word : Word "as" := by decide
    refine finds_next before star (finds_ahead ?_)
    refine finds_accept before star fun m passed => ?_
    refine finds_expect passed.before (word.begins_spaced _) fun m passed => ?_
    refine finds_name passed.before (localName.readable.word.begins_spaced _)
      localName.readable.name fun extent m written passed => ?_
    refine finds_extentFrom fun place _ => finds_pure ⟨?_, passed⟩
    rw [List.map_singleton, Specifier.node, unplaced_located]
    simp only [unplacedFields, unplaced_nameNode, written]
    rfl
  | names first others =>
    have before : c.Before (' ' :: '\x7b' :: ' ' :: (namesText (first :: others) ++
        ' ' :: '\x7d' :: ' ' :: ("from".toList ++ ' ' :: rest))) := by
      simpa [clauseText] using before
    have opening := (begins_opening (' ' :: (namesText (first :: others) ++
        ' ' :: '\x7d' :: ' ' :: ("from".toList ++ ' ' :: rest)))).space
    refine finds_next before opening (finds_ahead ?_)
    refine finds_refuse before opening (by decide) ?_
    simp only [Bool.false_eq_true, if_false]
    refine finds_expect before opening fun m passed => finds_last ?_
    obtain ⟨specifiers, d, repeats, nodes, closing⟩ :=
      repeats_names (List.cons_ne_nil first others) passed.before
    have ends := (begins_closing (' ' :: ("from".toList ++ ' ' :: rest))).space
    have closed : (itemBefore "\x7d" importSpecifier).Finds d fun result e =>
        result = none ∧ e.Passed (' ' :: ("from".toList ++ ' ' :: rest)) :=
      finds_accept closing.before ends fun e passed => finds_pure ⟨rfl, passed⟩
    obtain ⟨_, e, last, rfl, ahead⟩ := closed
    refine finds_of_reads ((reads_many (fun _ _ =>
      advances_itemBefore Border.passes_importSpecifier.consumes) passed.before.length_le).mpr
      ⟨d, repeats, last⟩) (finds_pure ⟨nodes, ahead⟩)

def attributesText : Option Attributes → List Char
  | none => []
  | some attributes => ' ' :: attributes.text.toList

/-- The attributes are read again before the semicolon and these characters. -/
structure Attributes.Legible (attributes : Attributes) (n : Nat) (rest : List Char) : Prop where
  deep : 2 * attributes.object.length < n
  ends : CommentsEnd attributes.rest (';' :: rest) attributes.object

/-- The attributes of an import are written as in these characters. -/
def Keeps (given : Option Extent) (attributes : Option Attributes) : Prop :=
  given.map Extent.text = attributes.map Attributes.text

theorem finds_importTail {n : Nat} {first : Cursor} {specifiers : List Specifier} {source : Extent}
    (attributes : Option Attributes) (legible : ∀ given ∈ attributes, given.Legible n rest)
    (before : c.Before (attributesText attributes ++ ';' :: rest)) :
    ((reader n).importTail first specifiers source).Finds c fun statement d =>
      (∃ extent given, statement = .importing extent specifiers source given ∧
        Keeps given attributes) ∧ d.Passed rest := by
  rw [importTail]
  cases attributes with
  | none =>
    have before : c.Before (';' :: rest) := before
    refine finds_takeLineEnd before (goesOn_semicolon rest) (finds_ahead ?_)
    refine finds_refuse before (begins_semicolon rest) (by simp) ?_
    simp only [Bool.false_eq_true, if_false]
    refine finds_given (finds_semicolon before fun d passed =>
      finds_extentFrom fun extent _ => finds_pure ⟨⟨_, _, rfl, rfl⟩, passed⟩)
  | some given =>
    have word : Word "with" := by decide
    have before : c.Before (' ' :: ("with".toList ++ (given.object ++ ';' :: rest))) := by
      simpa [attributesText, Attributes.text] using before
    have apart := given.written.apart (';' :: rest)
    have begins := (word.begins_append apart).space
    have goesOn : GoesOn (' ' :: ("with".toList ++ (given.object ++ ';' :: rest))) :=
      .space (word.goesOn _)
    refine finds_takeLineEnd before goesOn (finds_ahead ?_)
    have accepts : (acceptWord "with").Finds c fun found m =>
        found = true ∧ m.Passed (given.object ++ ';' :: rest) :=
      finds_last (finds_accept before begins fun m passed => finds_pure ⟨rfl, passed⟩)
    refine accepts.bind fun found m onward known => ?_
    obtain ⟨rfl, passed⟩ := known
    refine finds_ahead ?_
    obtain ⟨deep, ends⟩ := legible given rfl
    obtain ⟨piece, d, reads, value, ahead, settled⟩ :=
      given.written.reads ends deep passed.before passed.settled
    refine finds_of_reads reads (finds_require value (finds_extentFrom fun extent known => ?_))
    refine finds_given (finds_semicolon ahead fun e passed =>
      finds_extentFrom fun place _ => finds_pure ⟨⟨_, _, rfl, ?_⟩, passed⟩)
    have token : tokenText (' ' :: ("with".toList ++ (given.object ++ ';' :: rest))) =
        ("with".toList ++ given.object) ++ ';' :: rest := by
      rw [tokenText_blank, word.tokenText_append, List.append_assoc]
    have written := before.text_passed token (onward.trans reads.leads) ⟨ahead, settled⟩
    rw [Keeps, known, Option.map_some, written]
    rfl

theorem means_importing {clause : Clause} {source : Quotation} {attributes : Option Attributes}
    {place origin : Extent} {specifiers : List Specifier} {given : Option Extent}
    (listed : specifiers.map (·.node.unplaced) = clause.nodes) (written : origin.text = source.raw)
    (keeps : Keeps given attributes) :
    (Statement.importing place specifiers origin given).Means (.importing clause source attributes) := by
  refine ⟨_, rfl, ?_⟩
  have nodes : (specifiers.map Specifier.node).map unplaced = clause.nodes := by
    rw [List.map_map, ← listed]
    rfl
  have names := unplaced_textNode written
  rw [unplaced_located, unplacedFields_append, Draft.node]
  cases given with
  | none =>
    obtain rfl : attributes = none := by simpa [Keeps] using keeps.symm
    simp [unplacedFields, isPlace, nodes, names]
  | some extent =>
    obtain ⟨known, rfl, same⟩ := Option.map_eq_some_iff.mp keeps.symm
    simp [unplacedFields, isPlace, nodes, names, same]

/-- What an import is written with after its keyword. -/
def importingText (clause : Clause) (source : Quotation) (attributes : Option Attributes) : List Char :=
  clauseText clause ++ ' ' :: ("from".toList ++
    ' ' :: (source.raw.toList ++ (attributesText attributes ++ [';'])))

theorem importingText_append (clause : Clause) (source : Quotation) (attributes : Option Attributes)
    (rest : List Char) : importingText clause source attributes ++ rest =
      clauseText clause ++ ' ' :: ("from".toList ++
        ' ' :: (source.raw.toList ++ (attributesText attributes ++ ';' :: rest))) := by
  simp [importingText]

theorem finds_importDeclaration {n : Nat} {first : Cursor} {text : List Char} (clause : Clause)
    (source : Quotation) (attributes : Option Attributes)
    (legible : ∀ given ∈ attributes, given.Legible n rest) (before : c.Before text)
    (keyword : Begins text (.word "import")
      (' ' :: (importingText clause source attributes ++ rest))) :
    ((reader n).importDeclaration first).Finds c fun statement d =>
      statement.Means (.importing clause source attributes) ∧ d.Passed rest := by
  rw [importingText_append] at keyword
  obtain ⟨token, after, begins, kinds⟩ := clause.begins ("from".toList ++
    ' ' :: (source.raw.toList ++ (attributesText attributes ++ ';' :: rest)))
  refine finds_pass before keyword fun m passed => ?_
  refine finds_next passed.before begins ?_
  have finds : ∀ next : List Specifier × Extent → Scan Statement,
      (∀ pair, next pair = (reader n).importTail first pair.1 pair.2) →
      (do
        let specifiers ← importClause
        let source ← fromClause
        let pair ← pure (specifiers, source)
        next pair).Finds m fun statement d =>
          statement.Means (.importing clause source attributes) ∧ d.Passed rest := by
    intro next tail
    refine (finds_importClause clause passed.before).bind fun specifiers m _ listed => ?_
    refine (finds_fromClause source listed.2.before).bind fun origin m _ written => ?_
    refine finds_given ?_
    rw [tail]
    refine (finds_importTail attributes legible written.2.before).mono fun _ d _ known => ?_
    obtain ⟨⟨extent, given, rfl, keeps⟩, passed⟩ := known
    exact ⟨means_importing listed.1 written.1 keeps, passed⟩
  rcases kinds with ⟨_, rfl⟩ | rfl | rfl
  · exact finds _ fun _ => rfl
  · exact finds _ fun _ => rfl
  · exact finds _ fun _ => rfl

end Importing

end Draft

end ImportRedirect.Script
