import ImportRedirect.Proofs.Statement.View

/-!
Statements as they are read from scripts: what they are made of is complete, and an import does not
bring in both names and everything at once. Nothing can go wrong with such a statement.
-/

namespace ImportRedirect

namespace Node

/-- A quoted text with its content and the way it is written. -/
structure Quoted (literal : Value) : Prop where
  kind : hasType literal "Literal" = true
  value : ∃ text, literal.peek "value" = .str text
  raw : ∃ text, literal.peek "raw" = .str text

/-- An identifier with a name. -/
structure Named (identifier : Value) : Prop where
  name : ∃ name, Node.name identifier = .str name ∧ name ≠ ""

/-- A name as modules export it, written as a name or as a text. -/
def Exported (imported : Value) : Prop := (∃ name, Node.name imported = .str name) ∨ Quoted imported

/-- A specifier of one of the three types with all that belongs to it. -/
structure Specifies (specifier : Value) : Prop where
  record : specifier.IsRecord
  localName : Named (specifier.peek "local")
  type : specifier.peek "type" = defaultSpecifier ∨ specifier.peek "type" = namespaceSpecifier ∨
    specifier.peek "type" = namedSpecifier ∧ Exported (specifier.peek "imported")

/-- One declared thing. It is a name or a pattern, and what it is given need not be a call. -/
structure Declared (declarator : Value) : Prop where
  record : declarator.IsRecord
  target : Named (declarator.peek "id") ∨ Node.name (declarator.peek "id") = .null
  call : hasType (declarator.peek "init") "CallExpression" = true →
    ∃ arguments, (declarator.peek "init").peek "arguments" = .arr arguments ∧
      ∀ argument ∈ arguments, hasType argument "Literal" = true → Quoted argument

/-- A statement as it is read from a script. -/
inductive Regular (node : Value) : Prop where
  | importing {source : Value} {specifiers : List Value} (imports : Imports node source specifiers)
      (quoted : Quoted source) (specifies : ∀ specifier ∈ specifiers, Specifies specifier)
      (apart : namedSpecifier ∈ specifiers.map (·.peek "type") →
        namespaceSpecifier ∉ specifiers.map (·.peek "type"))
      (sole : (specifiers.filter (·.peek "type" == defaultSpecifier)).length ≤ 1)
  | declaring {declarators : List Value} (kind : hasType node "VariableDeclaration" = true)
      (declarations : node.peek "declarations" = .arr declarators)
      (declared : ∀ declarator ∈ declarators, Declared declarator)
  | other (noImport : hasType node "ImportDeclaration" = false)
      (noDeclaration : hasType node "VariableDeclaration" = false)

variable {literal node source declarator argument : Value} {specifiers : List Value}
  {module : String}

/-- What is known of a regular statement that is an import. -/
theorem Regular.imported (regular : Regular node) (imports : Imports node source specifiers) :
    Quoted source ∧ (∀ specifier ∈ specifiers, Specifies specifier) ∧
      (namedSpecifier ∈ specifiers.map (·.peek "type") →
        namespaceSpecifier ∉ specifiers.map (·.peek "type")) ∧
      (specifiers.filter (·.peek "type" == defaultSpecifier)).length ≤ 1 := by
  cases regular with
  | importing again quoted specifies apart sole =>
    obtain ⟨rfl, rfl⟩ := imports.unique again
    exact ⟨quoted, specifies, apart, sole⟩
  | declaring kind => exact absurd imports.kind (hasType_ne kind (by decide))
  | other noImport => simp [imports.kind] at noImport

/-- What a regular statement declares as the one thing has a name, when it has one at all. -/
theorem Regular.declared (regular : Regular node) (declares : Declares node declarator)
    (present : (Node.name (declarator.peek "id")).isPresent = true) :
    Named (declarator.peek "id") := by
  cases regular with
  | importing imports => exact absurd imports.kind (hasType_ne declares.kind (by decide))
  | declaring kind declarations declared =>
    have only := Value.arr.inj (declarations.symm.trans declares.declarations)
    rcases (declared declarator (by simp [only])).target with named | nameless
    · exact named
    · simp [nameless, Value.isPresent] at present
  | other _ noDeclaration => simp [declares.kind] at noDeclaration

theorem Quoted.record (quoted : Quoted literal) : literal.IsRecord := isRecord_of_hasType quoted.kind

theorem Quoted.text (quoted : Quoted literal) : ∃ text, text? literal = some text := by
  obtain ⟨text, value⟩ := quoted.value
  exact ⟨text, text?_eq_some.mpr ⟨quoted.kind, value⟩⟩

theorem Quoted.setText (quoted : Quoted literal) (text : String) :
    ∃ quote, Node.setText literal text = .ok (retext literal text quote) := by
  obtain ⟨raw, written⟩ := quoted.raw
  rw [setText_of_isRecord quoted.record, written]
  simp only [quoteOf]
  split
  · exact ⟨_, rfl⟩
  · exact ⟨_, rfl⟩

theorem Quoted.retext (quoted : Quoted literal) (text : String) (quote : Char) :
    Quoted (retext literal text quote) where
  kind := by
    rw [Node.retext, hasType_put_of_ne (by decide), hasType_put_of_ne (by decide)]
    exact quoted.kind
  value := by
    rw [Node.retext, Value.peek_put_of_ne (by decide), Value.peek_put_self quoted.record]
    exact ⟨_, rfl⟩
  raw := by
    rw [Node.retext, Value.peek_put_self (quoted.record.put _ _)]
    exact ⟨_, rfl⟩

theorem Named.present {identifier : Value} (named : Named identifier) :
    (Node.name identifier).isPresent = true := by
  obtain ⟨name, found, nonempty⟩ := named.name
  rw [found, Value.isPresent_iff_ne_empty]
  exact nonempty

theorem name_eq_str {identifier : Value} {name : String} (found : Node.name identifier = .str name) :
    hasType identifier "Identifier" = true ∧ identifier.peek "name" = .str name := by
  rw [name_eq] at found
  by_cases kind : hasType identifier "Identifier" = true
  · exact ⟨kind, by simpa [kind] using found⟩
  · simp [kind] at found

theorem name_of_hasType {node : Value} {type : String} (kind : hasType node type = true)
    (different : type ≠ "Identifier") : Node.name node = .null := by
  have other : hasType node "Identifier" = false := by
    rw [hasType_iff] at kind
    simp [hasType, type_eq_peek, kind, different]
  simp [name_eq, other]

theorem exportName_of_name {specifier : Value} {name : String}
    (found : Node.name (specifier.peek "imported") = .str name) : exportName specifier = .str name := by
  have noText : text? (specifier.peek "imported") = none := by
    have kind := hasType_iff.mp (name_eq_str found).1
    cases text : text? (specifier.peek "imported") with
    | none => rfl
    | some other => simp [hasType_iff.mp (text?_eq_some.mp text).1] at kind
  rw [exportName, found, noText]
  by_cases empty : name = ""
  · subst empty
    rfl
  · simp [Value.orElse, Value.isPresent, empty]

theorem exportName_of_text {specifier : Value} {text : String}
    (found : text? (specifier.peek "imported") = some text) : exportName specifier = .str text := by
  rw [exportName, name_of_hasType (text?_eq_some.mp found).1 (by decide), found]
  by_cases empty : text = ""
  · subst empty
    rfl
  · simp [Value.orElse, Value.isPresent, Value.ofOption, empty]

theorem exportName_of_exported {specifier : Value} (exported : Exported (specifier.peek "imported")) :
    ∃ name, exportName specifier = .str name := by
  rcases exported with ⟨name, found⟩ | quoted
  · exact ⟨name, exportName_of_name found⟩
  · obtain ⟨text, found⟩ := quoted.text
    exact ⟨text, exportName_of_text found⟩

end Node

end ImportRedirect
