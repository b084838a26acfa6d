import ImportRedirect.Proofs.Emit.Splice
import ImportRedirect.Proofs.Script.Nodes

/-!
Where the nodes of a script's statements stand. They say so themselves, and each of them is equal to
itself, so that an unchanged statement can be told from a changed one.
-/

namespace ImportRedirect

open Node Emit

namespace Script

variable {extent : Extent}

theorem peek_place_node {statement : Statement} {node : Value}
    (place : statement.extent? = some extent) (found : statement.node? = some node) :
    node.peek "start" = .int extent.start ∧ node.peek "end" = .int extent.stop := by
  cases statement with
  | empty => simp [Statement.node?] at found
  | importing other specifiers source attributes =>
    obtain rfl := Option.some.inj place
    obtain rfl := Option.some.inj found
    cases attributes <;> exact ⟨peek_located_of_none rfl, peek_located_of_none rfl⟩
  | declaration other binder declarators =>
    obtain rfl := Option.some.inj place
    obtain rfl := Option.some.inj found
    exact ⟨peek_located_of_none rfl, peek_located_of_none rfl⟩
  | other extent kind =>
    obtain rfl := Option.some.inj place
    obtain rfl := Option.some.inj found
    exact ⟨peek_located_of_none rfl, peek_located_of_none rfl⟩

theorem placed_of_laid {text : List Char} {start : Nat} {statements : List Statement}
    (laid : Laid text start statements) (origin : Boundary text start) :
    Placed text start (statements.filterMap Statement.node?) := by
  induction laid with
  | nil => exact .nil origin
  | empty _ inductionHypothesis => exact inductionHypothesis origin
  | @cons start statement extent rest place after nonempty begins ends _ inductionHypothesis =>
    cases found : statement.node? with
    | none => cases statement <;> simp [Statement.node?, Statement.extent?] at found place
    | some node =>
      obtain ⟨first, last⟩ := peek_place_node place found
      rw [List.filterMap_cons_some found]
      exact .cons origin first last after nonempty begins (inductionHypothesis ends)

theorem placed_of_parse {code : String} {tree : Tree} (parsed : parse code = .ok tree) :
    Placed code.toList 0 tree.body :=
  placed_of_laid (laid_of_parse parsed).1 (boundary_zero _)

open Value (Neat)

theorem neat_located {fields : List (String × Value)}
    (once : (fields.map (·.1) ++ ["start", "end"]).Nodup) (each : ∀ field ∈ fields, Neat field.2) :
    Neat (extent.located fields) := by
  refine .obj (by rwa [List.map_append]) fun field membership => ?_
  rcases List.mem_append.mp membership with own | place
  · exact each field own
  · have either : field = ("start", .int extent.start) ∨ field = ("end", .int extent.stop) := by
      simpa using place
    rcases either with rfl | rfl <;> exact .int _

theorem neat_nameNode (extent : Extent) : Neat (nameNode extent) :=
  neat_located (by simp) (by simp [Neat.str])

theorem neat_textNode (extent : Extent) : Neat (textNode extent) :=
  neat_located (by simp) (by simp [Neat.str])

theorem neat_otherNode (extent : Extent) (kind : Kind) : Neat (otherNode extent kind) :=
  neat_located (by simp) (by simp [Neat.str])

mutual

theorem neat_expr (expr : Expr) : Neat expr.node := by
  cases expr with
  | name extent => exact neat_nameNode extent
  | text extent => exact neat_textNode extent
  | call extent callee arguments optional =>
    have callees := neat_expr callee
    have given : Neat (.arr (Expr.nodes arguments)) := .arr (neat_exprs arguments)
    exact neat_located (by simp) (by simp [callees, given, Neat.str, Neat.bool])
  | member extent object property optional =>
    have objects := neat_expr object
    have named : Neat (.obj [("type", .str "Identifier"), ("name", .str property.text)]) :=
      .obj (by simp) (by simp [Neat.str])
    exact neat_located (by simp) (by simp [objects, named, Neat.str, Neat.bool])
  | other extent kind => exact neat_otherNode extent kind

theorem neat_exprs (exprs : List Expr) : ∀ node ∈ Expr.nodes exprs, Neat node := by
  cases exprs with
  | nil => simp [Expr.nodes]
  | cons expr rest =>
    intro node membership
    rw [Expr.nodes] at membership
    rcases List.mem_cons.mp membership with rfl | membership
    · exact neat_expr expr
    · exact neat_exprs rest node membership

end

theorem neat_specifier (specifier : Specifier) : Neat specifier.node := by
  cases specifier with
  | whole extent localName => exact neat_located (by simp) (by simp [neat_nameNode, Neat.str])
  | named extent imported localName =>
    exact neat_located (by simp) (by simp [neat_nameNode, neat_expr, Neat.str])
  | fallback localName => exact neat_located (by simp) (by simp [neat_nameNode, Neat.str])

theorem neat_declarator (declarator : Declarator) : Neat declarator.node := by
  have given : Neat ((declarator.value.map Expr.node).getD .null) := by
    cases declarator.value with
    | none => exact .null
    | some expr => exact neat_expr expr
  exact neat_located (by simp) (by simp [neat_expr, given, Neat.str])

/-- The node of a statement has each field once, and so have its parts. -/
theorem neat_node {statement : Statement} {node : Value} (found : statement.node? = some node) :
    Neat node := by
  cases statement with
  | empty => simp [Statement.node?] at found
  | importing extent specifiers source attributes =>
    obtain rfl := Option.some.inj found
    have listed : Neat (.arr (specifiers.map Specifier.node)) := by
      refine .arr fun node membership => ?_
      obtain ⟨specifier, _, rfl⟩ := List.mem_map.mp membership
      exact neat_specifier specifier
    cases attributes <;> exact neat_located (by simp) (by simp [listed, neat_textNode, Neat.str])
  | declaration extent binder declarators =>
    obtain rfl := Option.some.inj found
    have listed : Neat (.arr (declarators.map Declarator.node)) := by
      refine .arr fun node membership => ?_
      obtain ⟨declarator, _, rfl⟩ := List.mem_map.mp membership
      exact neat_declarator declarator
    exact neat_located (by simp) (by simp [listed, Neat.str])
  | other extent kind =>
    obtain rfl := Option.some.inj found
    exact neat_otherNode extent kind

theorem same_self_of_mem {tree : Tree} {node : Value} (membership : node ∈ tree.body) :
    node.same node = true := by
  obtain ⟨statement, _, found⟩ := List.mem_filterMap.mp membership
  exact (neat_node found).same_self

end Script

end ImportRedirect
