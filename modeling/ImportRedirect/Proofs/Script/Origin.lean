import ImportRedirect.Proofs.Script.Draft
import ImportRedirect.Proofs.Script.Nesting.Statement
import ImportRedirect.Proofs.Script.Nodes
import Mathlib.Data.Set.List

/-!
What drafts are made of: the statements of a script, seen as what their parts are written as, places
aside.
-/

namespace ImportRedirect.Script

open Node Value

namespace Draft

/-- One thing that an import brings in. -/
inductive Entry where
  | fallback (localName : Name)
  | whole (localName : Name)
  | named (item : Import)

namespace Entry

def node : Entry → Value
  | .fallback localName => .obj [("type", defaultSpecifier), ("local", localName.node)]
  | .whole localName => .obj [("type", namespaceSpecifier), ("local", localName.node)]
  | .named item => item.node

def type : Entry → Value
  | .fallback _ => defaultSpecifier
  | .whole _ => namespaceSpecifier
  | .named _ => namedSpecifier

theorem node_type (entry : Entry) : entry.node.peek "type" = entry.type := by
  cases entry <;> rfl

end Entry

def importNode (specifiers : List Value) (source : Quotation) (attributes : Option Attributes) : Value :=
  .obj ([("type", .str "ImportDeclaration"), ("specifiers", .arr specifiers), ("source", source.node)] ++
    (attributes.map fun attributes => ("attributesRaw", .str attributes.text)).toList)

end Draft

/-- A statement that a draft can be made of, or one that is no import and no require. -/
inductive Origin (node : Value) : Prop where
  | importing {specifiers : List Value} {source : Draft.Quotation} {attributes : Option Draft.Attributes}
      (same : node.unplaced = Draft.importNode specifiers source attributes)
      (drafted : ∀ specifier ∈ specifiers, ∃ draft : Draft.Entry, specifier = draft.node) : Origin node
  | declaring (kind : hasType node "VariableDeclaration" = true)
      (drafted : ∀ {declarator argument : Value} {callee module : String}, Declares node declarator →
        Calls (declarator.peek "init") callee argument → text? argument = some module →
        (Node.name (declarator.peek "id")).isPresent = true →
        ∃ binder target function quotation,
          node.unplaced = (Draft.requiring binder target function quotation none).node) : Origin node
  | other (noImport : hasType node "ImportDeclaration" = false)
      (noDeclaration : hasType node "VariableDeclaration" = false) : Origin node

variable {text : List Char} {low high : Nat}

theorem Expr.Exports.drafted {expr : Expr} (exports : expr.Exports text low high) :
    ∃ exported : Draft.Export, expr.node.unplaced = exported.node := by
  cases exports with
  | @name extent named =>
    exact ⟨.named ⟨extent.text, named.readable⟩, by rw [Expr.node, Draft.unplaced_nameNode]; rfl⟩
  | default _ word => exact ⟨.default, by rw [Expr.node, Draft.unplaced_nameNode, word]; rfl⟩
  | @text extent _ quoted =>
    exact ⟨.quoted ⟨extent.text, quoted⟩, by rw [Expr.node]; exact Draft.unplaced_textNode rfl⟩

theorem Specifier.Nested.drafted {specifier : Specifier} (nested : specifier.Nested text low high) :
    ∃ draft : Draft.Entry, specifier.node.unplaced = draft.node := by
  cases nested with
  | @whole extent localName _ bound =>
    refine ⟨.whole ⟨localName.text, bound.readable⟩, ?_⟩
    rw [Specifier.node, Draft.unplaced_located]
    simp [unplacedFields, isPlace, Draft.Entry.node, namespaceSpecifier, Draft.Name.node]
  | @named extent localName imported _ exported bound =>
    obtain ⟨drafted, same⟩ := exported.drafted
    refine ⟨.named ⟨drafted, ⟨localName.text, bound.readable⟩⟩, ?_⟩
    rw [Specifier.node, Draft.unplaced_located]
    simp [unplacedFields, isPlace, Draft.Entry.node, Draft.Import.node, namedSpecifier,
      Draft.Name.node, same]
  | @fallback localName bound =>
    refine ⟨.fallback ⟨localName.text, bound.readable⟩, ?_⟩
    rw [Specifier.node, Draft.unplaced_located]
    simp [unplacedFields, isPlace, Draft.Entry.node, defaultSpecifier, Draft.Name.node]

/-- A call of a name with a quoted text can be drafted. -/
theorem Expr.Nested.called {expr : Expr} {argument : Value} {callee module : String}
    (nested : expr.Nested text low high) (calls : Calls expr.node callee argument)
    (known : text? argument = some module) :
    ∃ function quotation, expr.node.unplaced = Draft.callNode function quotation := by
  have type := hasType_node calls.kind
  cases nested with
  | @call _ _ extent function arguments optional _ named given =>
    have name : Node.name function.node = .str callee := by
      have peeked : (Expr.call extent function arguments optional).node.peek "callee" = function.node :=
        peek_located rfl
      rw [← peeked]
      exact calls.callee_eq
    have plain : optional = false := by
      have peeked : (Expr.call extent function arguments optional).node.peek "optional" = .bool optional :=
        peek_located rfl
      simpa [peeked, isPresent] using calls.always
    have listed : Expr.nodes arguments = [argument] :=
      Value.arr.inj ((peek_located rfl).symm.trans calls.argument_eq)
    obtain ⟨only, rfl, rfl⟩ : ∃ only, arguments = [only] ∧ only.node = argument := by
      cases arguments with
      | nil => simp [Expr.nodes] at listed
      | cons only others =>
        cases others with
        | nil => exact ⟨only, rfl, by simpa [Expr.nodes] using listed⟩
        | cons => simp [Expr.nodes] at listed
    have quoted := hasType_node (text?_eq_some.mp known).1
    have identifies := hasType_node (name_eq_str name).1
    cases given only (by simp) with
    | @text _ _ written _ quotes =>
      cases named with
      | @name _ _ word _ operand =>
        refine ⟨⟨word.text, operand⟩, ⟨written.text, quotes⟩, ?_⟩
        subst plain
        have literal : (textNode written).unplaced = Draft.Quotation.node ⟨written.text, quotes⟩ :=
          Draft.unplaced_textNode rfl
        rw [Expr.node, Draft.unplaced_located]
        simp [unplacedFields, isPlace, Expr.node, Expr.nodes, literal, Draft.callNode]
      | _ => simp [Expr.type] at identifies
    | _ => simp [Expr.type] at quoted
  | _ => simp [Expr.type] at type

theorem Expr.Binds.named {expr : Expr} (binds : expr.Binds text low high)
    (present : (Node.name expr.node).isPresent = true) :
    ∃ extent, expr = .name extent ∧ Readable extent.text := by
  cases binds with
  | @name extent named => exact ⟨extent, rfl, named.readable⟩
  | @pattern extent kind =>
    have unparsed : hasType (otherNode extent kind) "Unparsed" = true :=
      hasType_iff.mpr (peek_located rfl)
    have nameless : Node.name (Expr.other extent kind).node = .null :=
      name_of_hasType unparsed (by decide)
    simp [nameless, isPresent] at present

theorem Origin.of_statement {statement : Statement} {node : Value} (parts : statement.Parts text)
    (attributed : statement.Attributed) (found : statement.node? = some node) : Origin node := by
  cases statement with
  | empty => simp [Statement.node?] at found
  | other extent kind =>
    obtain rfl := Option.some.inj found
    have type : hasType (otherNode extent kind) "Unparsed" = true := hasType_iff.mpr (peek_located rfl)
    exact .other (Bool.eq_false_iff.mpr (hasType_ne type (by decide)))
      (Bool.eq_false_iff.mpr (hasType_ne type (by decide)))
  | importing extent specifiers source given =>
    obtain rfl := Option.some.inj found
    obtain ⟨attributes, written⟩ : ∃ attributes : Option Draft.Attributes,
        given.map Extent.text = attributes.map Draft.Attributes.text := by
      cases given with
      | none => exact ⟨none, rfl⟩
      | some given =>
        obtain ⟨rest, object, restates⟩ := attributed
        exact ⟨some ⟨object, rest, restates.object⟩, congrArg some restates.text⟩
    refine @Origin.importing _ ((specifiers.map Specifier.node).map unplaced)
      ⟨source.text, parts.quoted⟩ attributes ?_ ?_
    · have literal : (textNode source).unplaced = Draft.Quotation.node ⟨source.text, parts.quoted⟩ :=
        Draft.unplaced_textNode rfl
      rw [Draft.unplaced_located, unplacedFields_append, Draft.importNode]
      cases given with
      | none =>
        obtain rfl : attributes = none := by simpa using written.symm
        simp [unplacedFields, isPlace, literal]
      | some given =>
        obtain ⟨known, rfl, same⟩ := Option.map_eq_some_iff.mp written.symm
        simp [unplacedFields, isPlace, literal, same]
    · intro value membership
      obtain ⟨_, listed, rfl⟩ := List.mem_map.mp membership
      obtain ⟨specifier, among, rfl⟩ := List.mem_map.mp listed
      exact (parts.nested specifier among).drafted
  | declaration extent binder declarators =>
    obtain rfl := Option.some.inj found
    refine .declaring (hasType_iff.mpr (peek_located rfl)) ?_
    intro declarator argument callee module declares calls known present
    have listed : declarators.map Declarator.node = [declarator] :=
      Value.arr.inj ((peek_located rfl).symm.trans declares.declarations)
    obtain ⟨only, rfl, rfl⟩ := List.map_eq_singleton_iff.mp listed
    have nested := parts only (by simp)
    have target : only.node.peek "id" = only.target.node := peek_located rfl
    have value : only.node.peek "init" = (only.value.map Expr.node).getD .null := peek_located rfl
    rw [target] at present
    rw [value] at calls
    obtain ⟨extent, bound, readable⟩ := nested.target.named present
    cases given : only.value with
    | none =>
      rw [given] at calls
      exact absurd calls.kind (by decide)
    | some expr =>
      rw [given] at calls
      obtain ⟨function, quotation, called⟩ := (nested.value expr given).called calls known
      refine ⟨binder, ⟨extent.text, readable⟩, function, quotation, ?_⟩
      rw [Draft.unplaced_located]
      simp [unplacedFields, isPlace, Declarator.node, Draft.unplaced_located, bound, given, called,
        Draft.node, Draft.valueNode, Draft.Name.node, Expr.node]

/-- An import of a script, as what drafts of it are made of. -/
theorem Origin.imported {node source : Value} {specifiers : List Value} (origin : Origin node)
    (imports : Imports node source specifiers) :
    ∃ quotation attributes,
      node.unplaced = Draft.importNode (specifiers.map unplaced) quotation attributes ∧
        source.unplaced = quotation.node ∧
        ∀ specifier ∈ specifiers, ∃ draft : Draft.Entry, specifier.unplaced = draft.node := by
  cases origin with
  | @importing values quotation attributes same drafted =>
    have listed : specifiers.map unplaced = values := by
      have peeked : node.unplaced.peek "specifiers" = (node.peek "specifiers").unplaced :=
        peek_unplaced (by decide) node
      rw [same, imports.specifiers_eq, unplaced_arr] at peeked
      exact (Value.arr.inj peeked).symm
    have quoted : source.unplaced = quotation.node := by
      have peeked : node.unplaced.peek "source" = (node.peek "source").unplaced :=
        peek_unplaced (by decide) node
      rw [same, imports.source_eq] at peeked
      exact peeked.symm
    refine ⟨quotation, attributes, by rw [listed, same], quoted, fun specifier membership => ?_⟩
    exact drafted _ (listed ▸ List.mem_map.mpr ⟨specifier, membership, rfl⟩)
  | declaring kind => exact absurd imports.kind (hasType_ne kind (by decide))
  | other noImport => simp [imports.kind] at noImport

namespace Draft

def declaratorNode (target : Name) (value : Value) : Value :=
  .obj [("type", .str "VariableDeclarator"), ("id", target.node), ("init", value)]

def declarationNode (binder : Binder) (declarator : Value) : Value :=
  .obj [("type", .str "VariableDeclaration"), ("kind", .str binder.name),
    ("declarations", .arr [declarator])]

end Draft

/-- A declaration of a script as the call of a function, as what drafts of it are made of. -/
theorem Origin.required {node declarator argument : Value} {callee module : String} (origin : Origin node)
    (declares : Declares node declarator) (calls : Calls (declarator.peek "init") callee argument)
    (text : text? argument = some module)
    (present : (Node.name (declarator.peek "id")).isPresent = true) :
    ∃ binder target function quotation,
      declarator.unplaced = Draft.declaratorNode target (Draft.callNode function quotation) ∧
        node.unplaced = Draft.declarationNode binder declarator.unplaced ∧
        (declarator.peek "init").unplaced = Draft.callNode function quotation ∧
        argument.unplaced = quotation.node := by
  cases origin with
  | importing same =>
    have type : node.unplaced.peek "type" = .str "ImportDeclaration" := by rw [same]; rfl
    rw [peek_unplaced (by decide), hasType_iff.mp declares.kind] at type
    simp at type
  | declaring kind drafted =>
    obtain ⟨binder, target, function, quotation, same⟩ := drafted declares calls text present
    have declarators : node.unplaced.peek "declarations" = (node.peek "declarations").unplaced :=
      peek_unplaced (by decide) node
    rw [same, declares.declarations, unplaced_arr] at declarators
    have only : declarator.unplaced = Draft.declaratorNode target (Draft.callNode function quotation) :=
      (List.cons.inj (Value.arr.inj declarators)).1.symm
    have value : declarator.unplaced.peek "init" = (declarator.peek "init").unplaced :=
      peek_unplaced (by decide) declarator
    rw [only] at value
    have given : (declarator.peek "init").unplaced.peek "arguments" =
        ((declarator.peek "init").peek "arguments").unplaced := peek_unplaced (by decide) _
    rw [← value, calls.argument_eq, unplaced_arr] at given
    refine ⟨binder, target, function, quotation, only, ?_, value.symm, ?_⟩
    · rw [same, only]
      rfl
    · exact (List.cons.inj (Value.arr.inj given)).1.symm
  | other _ noDeclaration => simp [declares.kind] at noDeclaration

/-- Drafts can be made of all statements of a script. -/
theorem origin_of_parse {code : String} {tree : Tree} (parsed : parse code = .ok tree) :
    ∀ node ∈ tree.body, Origin node := by
  intro node membership
  obtain ⟨statement, among, found⟩ := List.mem_filterMap.mp membership
  exact .of_statement (parts_of_parse parsed statement among).2
    (attributed_of_parse parsed statement among) found

namespace Draft

variable {node literal : Value} {specifiers others : List Value} {source written : Quotation}
  {attributes : Option Attributes}

section Same

theorem Quotation.same_self (quotation : Quotation) : quotation.node.same quotation.node = true :=
  same_self_obj (by simp) (by simp)

theorem same_importNode (alike : (arr specifiers).same (.arr others) = true) :
    (importNode specifiers source attributes).same (importNode others source attributes) = true := by
  have quoted := source.same_self
  rw [Value.same] at alike
  cases attributes <;> simp [importNode, Value.same, sameFields, lookup, quoted, alike]

end Same

theorem unplaced_withSpecifiers (same : node.unplaced = importNode specifiers source attributes)
    (others : List Value) : (node.put "specifiers" (.arr others)).unplaced =
      importNode (others.map unplaced) source attributes := by
  rw [unplaced_put (by decide), same, unplaced_arr]
  simp [importNode, put, Value.insert]

theorem unplaced_withSource (same : node.unplaced = importNode specifiers source attributes)
    (quoted : literal.unplaced = written.node) : (node.put "source" literal).unplaced =
      importNode specifiers written attributes := by
  rw [unplaced_put (by decide), same, quoted]
  simp [importNode, put, Value.insert]

end Draft

/-- A statement that could be drafted. -/
def Drafted (node : Value) : Prop := ∃ draft : Draft, node.Matches draft.node

theorem drafted_of_clause {node : Value} (clause : Draft.Clause) {specifiers : List Value}
    {source : Draft.Quotation} {attributes : Option Draft.Attributes}
    (same : node.unplaced = Draft.importNode specifiers source attributes)
    (alike : (arr clause.nodes).same (.arr specifiers) = true) : Drafted node := by
  refine ⟨.importing clause source attributes, ?_⟩
  rw [Matches, same]
  exact Draft.same_importNode alike

section Clauses

variable {node specifier : Value} {specifiers : List Value} {source : Draft.Quotation}
  {attributes : Option Draft.Attributes}

theorem same_identifier (name : String) :
    (identifier (.str name)).same (identifier (.str name)) = true :=
  same_self_obj (by simp) (by simp)

theorem Draft.Name.same_self (name : Draft.Name) : name.node.same name.node = true :=
  same_identifier name.text

theorem Draft.Entry.same_self (draft : Draft.Entry) : draft.node.same draft.node = true := by
  have named := Draft.Name.same_self
  have exported : ∀ exported : Draft.Export, exported.node.same exported.node = true := by
    intro exported
    cases exported with
    | default => exact same_self_obj (by simp) (by simp)
    | named name => exact named name
    | quoted quotation => exact quotation.same_self
  cases draft with
  | fallback localName => exact same_self_obj (by simp) (by simp [defaultSpecifier, named])
  | whole localName => exact same_self_obj (by simp) (by simp [namespaceSpecifier, named])
  | named item => exact same_self_obj (by simp) (by simp [namedSpecifier, named, exported])

theorem Draft.same_self (draft : Draft) : draft.node.same draft.node = true := by
  have itself : ∀ item : Draft.Entry, item.node.same item.node = true := Draft.Entry.same_self
  cases draft with
  | importing clause source attributes =>
    have same : (arr clause.nodes).same (.arr clause.nodes) = true := by
      cases clause with
      | fallback localName => exact (same_arr_singleton _ _).trans (itself (.fallback localName))
      | whole localName => exact (same_arr_singleton _ _).trans (itself (.whole localName))
      | names first others =>
        refine same_self_arr fun node membership => ?_
        obtain ⟨item, _, rfl⟩ := List.mem_map.mp membership
        exact itself (.named item)
    exact Draft.same_importNode same
  | requiring binder target callee argument member =>
    have bound := Draft.Name.same_self target
    have quoted := Draft.Quotation.same_self argument
    have called : (callNode callee argument).same (callNode callee argument) = true :=
      same_self_obj (by simp) (by simp [same_identifier, quoted])
    have value : (valueNode callee argument member).same (valueNode callee argument member) = true := by
      cases member with
      | none => exact called
      | some member =>
        exact same_self_obj (by simp) (by simp [ofOption, same_identifier, called])
    have declarator : (declaratorNode target (valueNode callee argument member)).same
        (declaratorNode target (valueNode callee argument member)) = true :=
      same_self_obj (by simp) (by simp [bound, value])
    exact same_self_obj (by simp) (by simpa [declaratorNode] using declarator)

/-- What is drafted as a specifier is the draft of its type. -/
theorem fallback_of_type (known : ∃ draft : Draft.Entry, specifier.unplaced = draft.node)
    (type : specifier.peek "type" = defaultSpecifier) :
    ∃ localName, specifier.unplaced = Draft.Entry.node (.fallback localName) := by
  obtain ⟨draft, same⟩ := known
  have kind : draft.type = defaultSpecifier := by
    rw [← draft.node_type, ← same, peek_unplaced (by decide), type]
    rfl
  cases draft with
  | fallback localName => exact ⟨localName, same⟩
  | whole | named => exact absurd kind (by simp only [Draft.Entry.type]; decide)

theorem item_of_type (known : ∃ draft : Draft.Entry, specifier.unplaced = draft.node)
    (type : specifier.peek "type" = namedSpecifier) :
    ∃ item : Draft.Import, specifier.unplaced = item.node := by
  obtain ⟨draft, same⟩ := known
  have kind : draft.type = namedSpecifier := by
    rw [← draft.node_type, ← same, peek_unplaced (by decide), type]
    rfl
  cases draft with
  | named item => exact ⟨item, same⟩
  | whole | fallback => exact absurd kind (by simp only [Draft.Entry.type]; decide)

theorem drafted_of_names
    (same : node.unplaced = Draft.importNode (specifiers.map unplaced) source attributes)
    (some : specifiers ≠ [])
    (known : ∀ specifier ∈ specifiers, ∃ draft : Draft.Entry, specifier.unplaced = draft.node)
    (types : ∀ specifier ∈ specifiers, specifier.peek "type" = namedSpecifier) : Drafted node := by
  obtain ⟨items, listed⟩ : specifiers.map unplaced ∈ Set.range (List.map Draft.Import.node) := by
    rw [Set.range_list_map]
    intro value membership
    obtain ⟨specifier, among, rfl⟩ := List.mem_map.mp membership
    obtain ⟨item, same⟩ := item_of_type (known specifier among) (types specifier among)
    exact ⟨item, same.symm⟩
  cases items with
  | nil => simp [eq_comm, some] at listed
  | cons first others =>
    refine drafted_of_clause (.names first others) same ?_
    rw [← listed]
    refine same_self_arr fun value membership => ?_
    obtain ⟨item, _, rfl⟩ := List.mem_map.mp membership
    exact (Draft.Entry.named item).same_self

theorem drafted_of_specifier (draft : Draft.Entry)
    (same : node.unplaced = Draft.importNode [specifier.unplaced] source attributes)
    (known : draft.node.same specifier.unplaced = true) : Drafted node := by
  cases draft with
  | fallback localName =>
    exact drafted_of_clause (.fallback localName) same ((same_arr_singleton _ _).trans known)
  | whole localName =>
    exact drafted_of_clause (.whole localName) same ((same_arr_singleton _ _).trans known)
  | named item =>
    exact drafted_of_clause (.names item []) same ((same_arr_singleton _ _).trans known)

end Clauses

/-- An import of some of the specifiers is made of the same parts. -/
theorem Origin.withSpecifiers {node source : Value} {specifiers chosen : List Value}
    (origin : Origin node) (imports : Imports node source specifiers)
    (among : chosen ⊆ specifiers) : Origin (node.put "specifiers" (.arr chosen)) := by
  obtain ⟨quotation, attributes, same, quoted, known⟩ := origin.imported imports
  refine .importing (Draft.unplaced_withSpecifiers same chosen) fun value membership => ?_
  obtain ⟨specifier, listed, rfl⟩ := List.mem_map.mp membership
  exact known specifier (among listed)

end ImportRedirect.Script
