import ImportRedirect.Proofs.Script.Layout
import ImportRedirect.Proofs.Statement.Regular
import ImportRedirect.Script.Program

/-!
The statements of a script as loosely typed nodes: all of them are regular.
-/

namespace ImportRedirect.Script

open Node

variable {extent : Extent}

theorem isRecord_located (extent : Extent) (fields : List (String × Value)) :
    (extent.located fields).IsRecord := ⟨_, rfl⟩

theorem peek_located {fields : List (String × Value)} {key : String} {value : Value}
    (found : Value.lookup key fields = some value) :
    (extent.located fields).peek key = value := by
  rw [Extent.located, Value.peek, Value.lookup_append_of_some found]
  rfl

theorem peek_located_of_none {fields : List (String × Value)} {key : String}
    (absent : Value.lookup key fields = none) :
    (extent.located fields).peek key =
      Value.peek (.obj [("start", .int extent.start), ("end", .int extent.stop)]) key := by
  rw [Extent.located, Value.peek, Value.lookup_append_of_none absent]
  rfl

theorem quoted_textNode (extent : Extent) : Quoted (textNode extent) where
  kind := hasType_iff.mpr (peek_located rfl)
  value := ⟨_, peek_located rfl⟩
  raw := ⟨_, peek_located rfl⟩

theorem name_nameNode (extent : Extent) : Node.name (nameNode extent) = .str extent.text := rfl

theorem named_nameNode (nonempty : extent.text ≠ "") : Named (nameNode extent) :=
  ⟨extent.text, name_nameNode extent, nonempty⟩

theorem exported_node {expr : Expr} (exported : expr.Exported) : Exported expr.node := by
  cases exported with
  | name extent => exact .inl ⟨_, name_nameNode extent⟩
  | text extent => exact .inr (quoted_textNode extent)

namespace Specifier

def type : Specifier → Value
  | .whole .. => namespaceSpecifier
  | .named .. => namedSpecifier
  | .fallback _ => defaultSpecifier

theorem peek_type_node (specifier : Specifier) : specifier.node.peek "type" = specifier.type := by
  cases specifier <;> exact peek_located rfl

theorem peek_local_node (specifier : Specifier) :
    specifier.node.peek "local" = nameNode specifier.localName := by
  cases specifier <;> exact peek_located rfl

theorem Named.type_eq {specifier : Specifier} (named : specifier.Named) :
    specifier.type = namedSpecifier := by
  cases named
  rfl

theorem specifies_node {specifier : Specifier} (nonempty : specifier.localName.text ≠ "")
    (named : specifier.type = namedSpecifier → specifier.Named) : Specifies specifier.node where
  record := by cases specifier <;> exact isRecord_located _ _
  localName := by
    rw [peek_local_node]
    exact named_nameNode nonempty
  type := by
    rw [peek_type_node]
    cases specifier with
    | whole => exact .inr (.inl rfl)
    | fallback => exact .inl rfl
    | named extent imported localName =>
      obtain ⟨exported⟩ := named rfl
      exact .inr (.inr ⟨rfl, exported_node exported⟩)

/-- In a clause, names are given as names, do not stand beside everything, and follow one default at
most. -/
structure Sorted (specifiers : List Specifier) : Prop where
  named : ∀ specifier ∈ specifiers, specifier.type = namedSpecifier → specifier.Named
  apart : namedSpecifier ∈ specifiers.map type → namespaceSpecifier ∉ specifiers.map type
  sole : (specifiers.filter (·.type == defaultSpecifier)).length ≤ 1

theorem Tail.sorted {specifiers : List Specifier} (tail : Tail specifiers) :
    Sorted specifiers ∧ defaultSpecifier ∉ specifiers.map type := by
  cases tail with
  | names named =>
    have types : ∀ each ∈ specifiers.map type, each = namedSpecifier := by
      intro each membership
      obtain ⟨specifier, among, rfl⟩ := List.mem_map.mp membership
      exact (named specifier among).type_eq
    have noDefault : defaultSpecifier ∉ specifiers.map type := fun membership => by
      simpa [defaultSpecifier, namedSpecifier] using types _ membership
    refine ⟨⟨fun specifier membership _ => named specifier membership, fun _ membership => ?_, ?_⟩,
      noDefault⟩
    · simpa [namespaceSpecifier, namedSpecifier] using types _ membership
    · have none : specifiers.filter (·.type == defaultSpecifier) = [] := by
        rw [List.filter_eq_nil_iff]
        intro specifier membership isDefault
        exact noDefault (List.mem_map.mpr ⟨specifier, membership, by simpa using isDefault⟩)
      simp [none]
  | whole extent localName =>
    refine ⟨⟨?_, ?_, ?_⟩, ?_⟩ <;>
      simp [type, namedSpecifier, namespaceSpecifier, defaultSpecifier]

theorem Clause.sorted {specifiers : List Specifier} (clause : Clause specifiers) :
    Sorted specifiers := by
  cases clause with
  | tail tail => exact tail.sorted.1
  | @fallback rest localName tail =>
    obtain ⟨sorted, noDefault⟩ := tail.sorted
    refine ⟨?_, ?_, ?_⟩
    · intro specifier membership isName
      rcases List.mem_cons.mp membership with rfl | membership
      · simp [type, defaultSpecifier, namedSpecifier] at isName
      · exact sorted.named specifier membership isName
    · intro someName someWhole
      have names : namedSpecifier ∈ rest.map type := by
        simpa [type, defaultSpecifier, namedSpecifier] using someName
      have wholes : namespaceSpecifier ∈ rest.map type := by
        simpa [type, defaultSpecifier, namespaceSpecifier] using someWhole
      exact sorted.apart names wholes
    · have none : rest.filter (·.type == defaultSpecifier) = [] := by
        rw [List.filter_eq_nil_iff]
        intro specifier membership isDefault
        exact noDefault (List.mem_map.mpr ⟨specifier, membership, by simpa using isDefault⟩)
      rw [List.filter_cons_of_pos (by rfl), none]
      exact Nat.le_refl 1

end Specifier

theorem mem_nodes {exprs : List Expr} {node : Value} :
    node ∈ Expr.nodes exprs ↔ ∃ expr ∈ exprs, node = Expr.node expr := by
  induction exprs with
  | nil => simp [Expr.nodes]
  | cons expr rest inductionHypothesis => simp [Expr.nodes, inductionHypothesis]

/-- The type of an expression's node. -/
def Expr.type : Expr → String
  | .name _ => "Identifier"
  | .text _ => "Literal"
  | .call .. => "CallExpression"
  | .member .. => "MemberExpression"
  | .other .. => "Unparsed"

theorem hasType_node {expr : Expr} {type : String} (kind : hasType expr.node type = true) :
    expr.type = type := by
  have peeked : expr.node.peek "type" = .str expr.type := by
    cases expr <;> exact peek_located rfl
  rw [hasType_iff, peeked] at kind
  exact Value.str.inj kind

/-- A value is a call only when it is written as one, and then its quoted arguments are complete. -/
theorem call_node {expr : Expr} (kind : hasType expr.node "CallExpression" = true) :
    ∃ arguments, expr.node.peek "arguments" = .arr arguments ∧
      ∀ argument ∈ arguments, hasType argument "Literal" = true → Quoted argument := by
  have type := hasType_node kind
  cases expr with
  | call extent callee arguments optional =>
    refine ⟨Expr.nodes arguments, peek_located rfl, fun argument membership quoted => ?_⟩
    obtain ⟨expr, _, rfl⟩ := mem_nodes.mp membership
    have type := hasType_node quoted
    cases expr with
    | text extent => exact quoted_textNode extent
    | _ => simp [Expr.type] at type
  | _ => simp [Expr.type] at type

theorem target_node {expr : Expr} (target : expr.Target) :
    Named expr.node ∨ Node.name expr.node = .null := by
  cases target with
  | name nonempty => exact .inl (named_nameNode nonempty)
  | pattern extent kind =>
    have unparsed : hasType (otherNode extent kind) "Unparsed" = true :=
      hasType_iff.mpr (peek_located rfl)
    exact .inr (name_of_hasType unparsed (by decide))

theorem declared_node {declarator : Declarator} (target : declarator.target.Target) :
    Declared declarator.node where
  record := isRecord_located _ _
  target := by
    have peeked : declarator.node.peek "id" = declarator.target.node := peek_located rfl
    rw [peeked]
    exact target_node target
  call := by
    have peeked : declarator.node.peek "init" = (declarator.value.map Expr.node).getD .null :=
      peek_located rfl
    rw [peeked]
    cases declarator.value with
    | none => exact fun kind => absurd kind (by decide)
    | some value => exact call_node

theorem imports_node {extent source : Extent} {specifiers : List Specifier}
    {attributes : Option Extent} {node : Value}
    (found : (Statement.importing extent specifiers source attributes).node? = some node) :
    Imports node (textNode source) (specifiers.map Specifier.node) := by
  obtain rfl := Option.some.inj found
  refine ⟨hasType_iff.mpr (peek_located rfl), peek_located rfl, peek_located rfl, ?_⟩
  intro specifier membership
  obtain ⟨specifier, _, rfl⟩ := List.mem_map.mp membership
  cases specifier <;> exact isRecord_located _ _

theorem regular_node {statement : Statement} {node : Value} (regular : statement.Regular)
    (found : statement.node? = some node) : Node.Regular node := by
  cases statement with
  | empty => simp [Statement.node?] at found
  | importing extent specifiers source attributes =>
    have sorted := regular.clause.sorted
    have types : (specifiers.map Specifier.node).map (·.peek "type") =
        specifiers.map Specifier.type := by
      simp [Specifier.peek_type_node]
    refine .importing (imports_node found) (quoted_textNode source) ?_ ?_ ?_
    · intro specifier membership
      obtain ⟨specifier, among, rfl⟩ := List.mem_map.mp membership
      exact Specifier.specifies_node (regular.nonempty specifier among) (sorted.named specifier among)
    · rw [types]
      exact sorted.apart
    · rw [List.filter_map, List.length_map]
      simpa [Function.comp_def, Specifier.peek_type_node] using sorted.sole
  | declaration extent binder declarators =>
    obtain rfl := Option.some.inj found
    refine .declaring (hasType_iff.mpr (peek_located rfl)) (peek_located rfl) ?_
    intro declarator membership
    obtain ⟨declarator, among, rfl⟩ := List.mem_map.mp membership
    exact declared_node (regular declarator among)
  | other extent kind =>
    obtain rfl := Option.some.inj found
    have unparsed : hasType (otherNode extent kind) "Unparsed" = true :=
      hasType_iff.mpr (peek_located rfl)
    exact .other (by simpa using hasType_ne unparsed (by decide))
      (by simpa using hasType_ne unparsed (by decide))

/-- All statements of a script are regular. -/
theorem regular_of_parse {code : String} {tree : Tree} (parsed : parse code = .ok tree) :
    ∀ node ∈ tree.body, Node.Regular node := by
  intro node membership
  obtain ⟨statement, among, found⟩ := List.mem_filterMap.mp membership
  exact regular_node ((laid_of_parse parsed).2 statement among) found

end ImportRedirect.Script
