import ImportRedirect.Proofs.Pass.Echo
import ImportRedirect.Proofs.Script.Alone
import ImportRedirect.Proofs.Script.Draft
import ImportRedirect.Proofs.Script.Placement

/-!
Statements that are the same alone have nodes that say the same.
-/

namespace ImportRedirect.Script

open Node Value Draft

theorem takeBytes_takeBytes (n : Nat) (text : List Char) :
    takeBytes n (takeBytes n text) = takeBytes n text := by
  fun_induction takeBytes n text with
  | case1 => rfl
  | case2 n => cases n <;> rfl
  | case3 n c rest inductionHypothesis => rw [takeBytes, inductionHypothesis]

@[simp] theorem text_alone (extent : Extent) : (alone extent).text = extent.text := by
  simp [Extent.text, alone, takeBytes_takeBytes]

section Nodes

variable (extent : Extent)

theorem unplaced_textNode_alone : (textNode (alone extent)).unplaced = (textNode extent).unplaced := by
  rw [textNode, textNode, unplaced_located, unplaced_located, text_alone]

theorem unplaced_otherNode_alone (kind : Kind) :
    (otherNode (alone extent) kind).unplaced = (otherNode extent kind).unplaced := by
  rw [otherNode, otherNode, unplaced_located, unplaced_located, text_alone]

end Nodes

mutual

theorem unplaced_expr_alone (expr : Expr) : (alone expr).node.unplaced = expr.node.unplaced := by
  cases expr with
  | name extent =>
    show (nameNode (alone extent)).unplaced = (nameNode extent).unplaced
    simp
  | text extent => exact unplaced_textNode_alone extent
  | call extent callee arguments optional =>
    show (Expr.call (alone extent) (alone callee) (Expr.allAlone arguments) optional).node.unplaced = _
    have callees := unplaced_expr_alone callee
    have given := unplaced_exprs_alone arguments
    rw [Expr.node, Expr.node, unplaced_located, unplaced_located]
    simp [unplacedFields, isPlace, callees, given]
  | member extent object property optional =>
    show (Expr.member (alone extent) (alone object) (alone property) optional).node.unplaced = _
    have objects := unplaced_expr_alone object
    rw [Expr.node, Expr.node, unplaced_located, unplaced_located, text_alone]
    simp [unplacedFields, isPlace, objects]
  | other extent kind => exact unplaced_otherNode_alone extent kind

theorem unplaced_exprs_alone (exprs : List Expr) :
    (Expr.nodes (Expr.allAlone exprs)).map unplaced = (Expr.nodes exprs).map unplaced := by
  cases exprs with
  | nil => rfl
  | cons expr rest =>
    have first := unplaced_expr_alone expr
    have others := unplaced_exprs_alone rest
    show (alone expr).node.unplaced :: (Expr.nodes (Expr.allAlone rest)).map unplaced = _
    rw [first, others]
    rfl

end

theorem unplaced_specifier_alone (specifier : Specifier) :
    (alone specifier).node.unplaced = specifier.node.unplaced := by
  cases specifier with
  | whole extent localName =>
    show (Specifier.whole (alone extent) (alone localName)).node.unplaced = _
    rw [Specifier.node, Specifier.node, unplaced_located, unplaced_located]
    simp [unplacedFields, isPlace]
  | named extent imported localName =>
    show (Specifier.named (alone extent) (alone imported) (alone localName)).node.unplaced = _
    rw [Specifier.node, Specifier.node, unplaced_located, unplaced_located]
    simp [unplacedFields, isPlace, unplaced_expr_alone]
  | fallback localName =>
    show (Specifier.fallback (alone localName)).node.unplaced = _
    rw [Specifier.node, Specifier.node, unplaced_located, unplaced_located]
    simp [unplacedFields, isPlace]

theorem unplaced_declarator_alone (declarator : Declarator) :
    (alone declarator).node.unplaced = declarator.node.unplaced := by
  obtain ⟨extent, target, value⟩ := declarator
  show (Declarator.mk (alone extent) (alone target) (alone value)).node.unplaced = _
  have given : (((alone value).map Expr.node).getD .null).unplaced =
      ((value.map Expr.node).getD .null).unplaced := by
    cases value with
    | none => rfl
    | some expr => exact unplaced_expr_alone expr
  rw [Declarator.node, Declarator.node, unplaced_located, unplaced_located]
  simp [unplacedFields, isPlace, unplaced_expr_alone, given]

theorem map_unplaced_alone {α : Type} [Alone α] {node : α → Value}
    (each : ∀ a, (node (alone a)).unplaced = (node a).unplaced) (items : List α) :
    ((alone items).map node).map unplaced = (items.map node).map unplaced := by
  show ((items.map alone).map node).map unplaced = _
  simp [each]

theorem unplaced_statement_alone (statement : Statement) :
    (alone statement).node?.map unplaced = statement.node?.map unplaced := by
  cases statement with
  | empty => rfl
  | importing extent specifiers source attributes =>
    have listed := map_unplaced_alone unplaced_specifier_alone specifiers
    have quoted := unplaced_textNode_alone source
    refine congrArg some ?_
    cases attributes with
    | none =>
      show (Extent.located _ (_ ++ [])).unplaced = _
      rw [unplaced_located, unplaced_located]
      simp [unplacedFields, isPlace, listed, quoted]
    | some attributes =>
      show (Extent.located _ (_ ++ [("attributesRaw", .str (alone attributes).text)])).unplaced = _
      rw [unplaced_located, unplaced_located, text_alone]
      simp [unplacedFields, isPlace, listed, quoted]
  | declaration extent binder declarators =>
    have listed := map_unplaced_alone unplaced_declarator_alone declarators
    refine congrArg some ?_
    rw [unplaced_located, unplaced_located]
    simp [unplacedFields, isPlace, listed]
  | other extent kind => exact congrArg some (unplaced_otherNode_alone extent kind)

theorem unplaced_node?_of_alone {statement other : Statement} (same : alone other = alone statement) :
    other.node?.map unplaced = statement.node?.map unplaced :=
  (unplaced_statement_alone other).symm.trans
    ((congrArg (·.node?.map unplaced) same).trans (unplaced_statement_alone statement))

/-- What is read as the same statement, places aside, is the same node, places aside. -/
theorem echoes_of_alone {statement other : Statement} {node : Value} (same : alone other = alone statement)
    (found : statement.node? = some node) : ∃ again, other.node? = some again ∧ node.Echoes again := by
  have nodes := unplaced_node?_of_alone same
  rw [found, Option.map_some, Option.map_eq_some_iff] at nodes
  obtain ⟨again, written, alike⟩ := nodes
  refine ⟨again, written, ?_⟩
  rw [Echoes, alike]
  exact .of_eq rfl (neat_node found).unplaced.same_self

/-- A call that is read says whether it is made in any case. -/
theorem callsAlways_node {statement : Statement} {node : Value} (found : statement.node? = some node) :
    CallsAlways node := by
  intro declarator callee argument declares calls
  cases statement with
  | empty => simp [Statement.node?] at found
  | importing extent specifiers source attributes =>
    obtain rfl := Option.some.inj found
    cases attributes <;>
      exact absurd declares.kind (hasType_ne (hasType_iff.mpr (peek_located rfl)) (by decide))
  | declaration extent binder declarators =>
    obtain rfl := Option.some.inj found
    have listed : declarators.map Declarator.node = [declarator] :=
      Value.arr.inj ((peek_located rfl).symm.trans declares.declarations)
    obtain ⟨only, rfl, rfl⟩ := List.map_eq_singleton_iff.mp listed
    have value : only.node.peek "init" = (only.value.map Expr.node).getD .null := peek_located rfl
    rw [value] at calls ⊢
    cases given : only.value with
    | none =>
      rw [given] at calls
      exact absurd calls.kind (by decide)
    | some expr =>
      rw [given] at calls
      have always := calls.always
      cases expr with
      | call extent function arguments optional =>
        have peeked : (Expr.call extent function arguments optional).node.peek "optional" =
            .bool optional := peek_located rfl
        have plain : optional = false := by
          simpa [peeked, isPresent] using (show
            ((Expr.call extent function arguments optional).node.peek "optional").isPresent = false from always)
        exact plain ▸ peeked
      | _ => exact absurd calls.kind (hasType_ne (hasType_iff.mpr (peek_located rfl)) (by decide))
  | other extent kind =>
    obtain rfl := Option.some.inj found
    exact absurd declares.kind (hasType_ne (hasType_iff.mpr (peek_located rfl)) (by decide))

end ImportRedirect.Script
