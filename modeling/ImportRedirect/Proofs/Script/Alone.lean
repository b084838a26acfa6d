import ImportRedirect.Script.Statement

/-!
What was read, without the places where it stood: two results are the same alone when they are made in
the same way of stretches with the same text.
-/

namespace ImportRedirect.Script

class Alone (α : Type) where
  alone : α → α

export Alone (alone)

/-- Results that say nothing of places. -/
class Placeless (α : Type) [Alone α] : Prop where
  alone_eq : ∀ a : α, alone a = a

section Instances

variable {α β : Type}

instance : Alone Unit := ⟨id⟩

instance : Alone Bool := ⟨id⟩

instance : Alone Lexeme := ⟨id⟩

instance : Alone Binder := ⟨id⟩

instance [Alone α] : Alone (Option α) := ⟨Option.map alone⟩

instance [Alone α] : Alone (List α) := ⟨List.map alone⟩

instance [Alone α] [Alone β] : Alone (α × β) := ⟨Prod.map alone alone⟩

instance : Placeless Unit := ⟨fun _ => rfl⟩

instance : Placeless Bool := ⟨fun _ => rfl⟩

instance : Placeless Lexeme := ⟨fun _ => rfl⟩

instance : Placeless Binder := ⟨fun _ => rfl⟩

instance [Alone α] [Placeless α] : Placeless (Option α) where
  alone_eq a := by
    cases a with
    | none => rfl
    | some a => exact congrArg some (Placeless.alone_eq a)

instance [Alone α] [Placeless α] : Placeless (List α) where
  alone_eq list := by
    have each : (alone : α → α) = id := funext Placeless.alone_eq
    show list.map alone = list
    rw [each, List.map_id]

theorem all_alone [Alone α] {holds : α → Bool} (each : ∀ a, holds (alone a) = holds a)
    {list other : List α} (same : alone other = alone list) : other.all holds = list.all holds := by
  have map : ∀ list : List α, (alone list).all holds = list.all holds := fun list => by
    show (list.map alone).all holds = list.all holds
    rw [List.all_map]
    exact congrArg list.all (funext each)
  rw [← map other, same, map list]

theorem any_getLast?_alone [Alone α] {holds : α → Bool} (each : ∀ a, holds (alone a) = holds a)
    {list other : List α} (same : alone other = alone list) :
    other.getLast?.any holds = list.getLast?.any holds := by
  have map : ∀ list : List α, (alone list).getLast?.any holds = list.getLast?.any holds := fun list => by
    show (list.map alone).getLast?.any holds = list.getLast?.any holds
    rw [List.getLast?_map, Option.any_map]
    exact congrArg list.getLast?.any (funext each)
  rw [← map other, same, map list]

/-- What was left out does not matter. -/
theorem alone_filterMap_id [Alone α] {list other : List (Option α)} (same : alone other = alone list) :
    alone (other.filterMap id) = alone (list.filterMap id) := by
  have map : ∀ list : List (Option α), alone (list.filterMap id) = (alone list).filterMap id := by
    intro list
    induction list with
    | nil => rfl
    | cons item rest inductionHypothesis =>
      cases item with
      | none => exact inductionHypothesis
      | some a => exact congrArg (alone a :: ·) inductionHypothesis
  rw [map, same, map]

end Instances

/-- The stretch with its own characters only. -/
instance : Alone Extent where
  alone extent := ⟨0, takeBytes (extent.stop - extent.start) extent.ahead, extent.stop - extent.start⟩

theorem Extent.text_eq {extent other : Extent} (same : alone extent = alone other) :
    extent.text = other.text := by
  have characters := congrArg Extent.ahead same
  exact congrArg String.ofList characters

mutual

def Expr.alone : Expr → Expr
  | .name extent => .name (Script.alone extent)
  | .text extent => .text (Script.alone extent)
  | .call extent callee arguments optional =>
    .call (Script.alone extent) callee.alone (Expr.allAlone arguments) optional
  | .member extent object property optional =>
    .member (Script.alone extent) object.alone (Script.alone property) optional
  | .other extent kind => .other (Script.alone extent) kind

def Expr.allAlone : List Expr → List Expr
  | [] => []
  | expr :: rest => expr.alone :: Expr.allAlone rest

end

instance : Alone Expr := ⟨Expr.alone⟩

theorem Expr.allAlone_eq (exprs : List Expr) : Expr.allAlone exprs = exprs.map alone := by
  induction exprs with
  | nil => rfl
  | cons expr rest inductionHypothesis =>
    rw [Expr.allAlone, inductionHypothesis]
    rfl

instance : Alone Piece := ⟨fun piece => { piece with expr := alone piece.expr }⟩

namespace Piece

variable {piece other : Piece}

theorem value_eq (same : alone other = alone piece) : other.value = piece.value := by
  have parts := congrArg value same
  exact parts

theorem target_eq (same : alone other = alone piece) : other.target = piece.target := by
  have parts := congrArg target same
  exact parts

theorem element_eq (same : alone other = alone piece) : other.element = piece.element := by
  have parts := congrArg element same
  exact parts

theorem expr_eq (same : alone other = alone piece) : alone other.expr = alone piece.expr := by
  have parts := congrArg expr same
  exact parts

theorem isParenthesized_eq (same : alone other = alone piece) :
    other.isParenthesized = piece.isParenthesized := by
  have kept : ∀ piece : Piece, (alone piece).isParenthesized = piece.isParenthesized := by
    rintro ⟨expr, _, _, _⟩
    cases expr with
    | other _ kind => cases kind <;> rfl
    | _ => rfl
  rw [← kept other, same, kept piece]

theorem alone_exprs {pieces others : List Piece} (same : alone others = alone pieces) :
    alone (others.map (·.expr)) = alone (pieces.map (·.expr)) := by
  have map : ∀ pieces : List Piece, alone (pieces.map (·.expr)) = (alone pieces).map (·.expr) := by
    intro pieces
    show (pieces.map (·.expr)).map alone = (pieces.map alone).map (·.expr)
    rw [List.map_map, List.map_map]
    rfl
  rw [map, same, map]

end Piece

theorem Expr.alone_call {extent extent' : Extent} {callee callee' : Expr} {given given' : List Expr}
    (place : Script.alone extent' = Script.alone extent)
    (callees : Script.alone callee' = Script.alone callee)
    (arguments : Script.alone given' = Script.alone given) (optional : Bool) :
    Script.alone (Expr.call extent' callee' given' optional) =
      Script.alone (Expr.call extent callee given optional) := by
  show Expr.call _ (Script.alone callee') (Expr.allAlone given') optional =
    Expr.call _ (Script.alone callee) (Expr.allAlone given) optional
  have lists : Expr.allAlone given' = Expr.allAlone given := by
    rw [Expr.allAlone_eq, Expr.allAlone_eq]
    exact arguments
  rw [place, callees, lists]

instance : Alone Specifier where
  alone
    | .whole extent localName => .whole (alone extent) (alone localName)
    | .named extent imported localName => .named (alone extent) (alone imported) (alone localName)
    | .fallback localName => .fallback (alone localName)

instance : Alone Declarator where
  alone declarator := ⟨alone declarator.extent, alone declarator.target, alone declarator.value⟩

instance : Alone Statement where
  alone
    | .empty => .empty
    | .importing extent specifiers source attributes =>
      .importing (alone extent) (alone specifiers) (alone source) (alone attributes)
    | .declaration extent binder declarators => .declaration (alone extent) binder (alone declarators)
    | .other extent kind => .other (alone extent) kind

end ImportRedirect.Script
