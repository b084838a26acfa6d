import ImportRedirect.Emit.Render

/-!
Putting changed statements back into the text they came from. Statements that share a place are
printed together in its stead, an unchanged statement keeps its bytes, and so does everything in
between.
-/

namespace ImportRedirect.Emit

/-- Where a statement stands, as far as it says so. -/
structure Span where
  start : Value
  stop : Value

def Span.of (node : Value) : Except Fault Span := do
  return ⟨← node.get "start", ← node.get "end"⟩

def Span.same (first second : Span) : Bool :=
  first.start.same second.start && first.stop.same second.stop

/-- Spans can be looked up when their ends are scalars. -/
def Span.asKey (span : Span) : Except Fault Span := do
  let _ ← span.start.asMember
  let _ ← span.stop.asMember
  return span

def Span.isOpen (span : Span) : Bool := span.start == .null || span.stop == .null

/-- A position in a sequence: numbers and truth values. -/
def position : Value → Except Fault Int
  | .int i => .ok i
  | .bool b => .ok (if b then 1 else 0)
  | _ => .error .wrongKind

/-- A position counted from the front: negative ones count from the end, and all stay in bounds. -/
def clamp (length : Nat) (index : Int) : Nat :=
  if index < 0 then (index + length).toNat else min index.toNat length

def bytesBetween (bytes : List UInt8) (start stop : Value) : Except Fault (List UInt8) := do
  let start := clamp bytes.length (← position start)
  let stop := clamp bytes.length (← position stop)
  return (bytes.drop start).take (stop - start)

def bytesFrom (bytes : List UInt8) (start : Value) : Except Fault (List UInt8) := do
  return bytes.drop (clamp bytes.length (← position start))

/-- The statements as they were, by span; of two with one span the later counts. -/
def knownStatements (nodes : List Value) : Except Fault (List (Span × Value)) := do
  let entries ← nodes.mapM fun node => do
    let span ← (← Span.of node).asKey
    return (span, node)
  return entries.reverse

def takeGroup (span : Span) : List Value → Except Fault (List Value × List Value)
  | [] => .ok ([], [])
  | node :: rest => do
    if span.same (← Span.of node) then
      let (group, rest) ← takeGroup span rest
      return (node :: group, rest)
    else return ([], node :: rest)

/-- Whether a group is one statement that did not change. -/
def isUnchanged (known : List (Span × Value)) (span : Span) : List Value → Except Fault Bool
  | [node] => do
    let span ← span.asKey
    match known.find? fun entry => entry.1.same span with
    | some (_, before) => return before.same node
    | none => return node == .null
  | _ => .ok false

/-- The text from the cursor on, group by group; `n` bounds the number of groups. -/
def spliceFrom (bytes : List UInt8) (known : List (Span × Value)) :
    Nat → Value → List Value → Except Fault (List UInt8)
  | _, cursor, [] => bytesFrom bytes cursor
  | 0, cursor, _ => bytesFrom bytes cursor
  | n + 1, cursor, node :: rest => do
    let span ← Span.of node
    let (group, rest) ← takeGroup span rest
    if span.isOpen then
      let added := Text.Utf8.encode ("\n" ++ (← lines (node :: group)))
      return added ++ (← spliceFrom bytes known n cursor rest)
    else
      let gap ← bytesBetween bytes cursor span.start
      let block ←
        if ← isUnchanged known span (node :: group) then bytesBetween bytes span.start span.stop
        else pure (Text.Utf8.encode (← lines (node :: group)))
      return gap ++ block ++ (← spliceFrom bytes known n span.stop rest)

/-- The source with its statements replaced by those of `body`. -/
def splice (source : String) (pristine body : List Value) : Except Fault String := do
  let bytes := Text.Utf8.encode source
  let known ← knownStatements pristine
  let spliced ← spliceFrom bytes known body.length (.int 0) body
  match Text.Utf8.decode spliced with
  | .ok text => return text
  | .error error => throw (.undecodable error)

end ImportRedirect.Emit
