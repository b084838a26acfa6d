import ImportRedirect.Fault

/-!
Partial access to loosely typed data. Each operation is defined on some kinds of value only and
otherwise gives the fault that belongs to it.
-/

namespace ImportRedirect.Value

/-- The optional field of an object; null when it is absent. -/
def get (v : Value) (key : String) : Except Fault Value :=
  match v with
  | .obj fields => .ok ((lookup key fields).getD .null)
  | _ => .error .notRecord

def getD (v : Value) (key : String) (default : Value) : Except Fault Value :=
  match v with
  | .obj fields => .ok ((lookup key fields).getD default)
  | _ => .error .notRecord

def field (v : Value) (key : String) : Except Fault Value :=
  match v with
  | .obj fields =>
    match lookup key fields with
    | some value => .ok value
    | none => .error (.missingField key)
  | _ => .error .wrongKind

def setField (v : Value) (key : String) (value : Value) : Except Fault Value :=
  match v with
  | .obj fields => .ok (.obj (insert key value fields))
  | _ => .error .wrongKind

def item (v : Value) (index : Nat) : Except Fault Value :=
  match v with
  | .arr items =>
    match items[index]? with
    | some value => .ok value
    | none => .error .outOfRange
  | .str s =>
    match s.toList[index]? with
    | some c => .ok (.str (String.singleton c))
    | none => .error .outOfRange
  | .obj _ => .error (.missingItem index)
  | _ => .error .wrongKind

def setItem (v : Value) (index : Nat) (value : Value) : Except Fault Value :=
  match v with
  | .arr items =>
    if index < items.length then .ok (.arr (items.set index value)) else .error .outOfRange
  | _ => .error .wrongKind

def modifyAt (v : Value) (change : Value → Except Fault Value) : List Place → Except Fault Value
  | [] => change v
  | .field key :: rest => do
    let part ← v.field key
    v.setField key (← part.modifyAt change rest)
  | .item index :: rest => do
    let part ← v.item index
    v.setItem index (← part.modifyAt change rest)

def size : Value → Except Fault Nat
  | .arr items => .ok items.length
  | .str s => .ok s.length
  | .obj fields => .ok fields.length
  | _ => .error .wrongKind

/-- The parts in order: items of a list, characters of a text, names of an object's fields. -/
def parts : Value → Except Fault (List Value)
  | .arr items => .ok items
  | .str s => .ok (s.toList.map fun c => .str (String.singleton c))
  | .obj fields => .ok (fields.map fun entry => .str entry.1)
  | _ => .error .wrongKind

/-- The value when it counts as present, another one otherwise. -/
def orElse (v default : Value) : Value := if v.isPresent then v else default

/-- Only scalars can be members of a set. -/
def asMember (v : Value) : Except Fault Value :=
  match v with
  | .arr _ | .obj _ => .error .wrongKind
  | _ => .ok v

def isText : Value → Bool
  | .str _ => true
  | _ => false

def ofOption : Option String → Value
  | some s => .str s
  | none => .null

end ImportRedirect.Value
