import ImportRedirect.Value.Access

/-!
Questions about the nodes of a program tree, none of which is taken to be well formed, and the one
change made to a quoted text.
-/

namespace ImportRedirect.Node

/-- The type of a node; null when there is none. -/
def type (node : Value) : Value :=
  match node with
  | .obj fields => (Value.lookup "type" fields).getD .null
  | _ => .null

def hasType (node : Value) (name : String) : Bool := type node == .str name

def text? (node : Value) : Option String :=
  match node with
  | .obj fields =>
    if hasType node "Literal" then
      match Value.lookup "value" fields with
      | some (.str text) => some text
      | _ => none
    else none
  | _ => none

/-- The name of an identifier; null for everything else. -/
def name (node : Value) : Value :=
  match node with
  | .obj fields =>
    if hasType node "Identifier" then (Value.lookup "name" fields).getD .null else .null
  | _ => .null

def identifier (name : Value) : Value := .obj [("type", .str "Identifier"), ("name", name)]

def importedName (specifier : Value) : Except Fault Value := do
  let imported ← specifier.get "imported"
  return (name imported).orElse (.ofOption (text? imported))

/-- The imported name, or no characters when there is none. -/
def importedNameD (specifier : Value) : Except Fault Value := do
  return (← importedName specifier).orElse (.str "")

def localName (specifier : Value) : Except Fault Value := do
  return name (← specifier.get "local")

def specifierTypes (node : Value) : Except Fault (List Value) := do
  let specifiers := (← node.get "specifiers").orElse (.arr [])
  (← specifiers.parts).mapM (·.get "type")

def escapeBackslash (c : Char) : List Char := if c == '\\' then ['\\', '\\'] else [c]

def escapeQuote (quote c : Char) : List Char := if c == quote then ['\\', c] else [c]

/-- A text between quotes. Backslashes are doubled first, then each quote gets one. -/
def quoteChars (quote : Char) (text : List Char) : List Char :=
  quote :: (text.flatMap escapeBackslash).flatMap (escapeQuote quote) ++ [quote]

def quoteText (text : String) (quote : Char) : String :=
  String.ofList (quoteChars quote text.toList)

/-- The quote that a written text begins with; a single one when there is none. -/
def quoteOf (raw : Value) : Except Fault Char :=
  if !raw.isPresent then .ok '\''
  else
    match raw with
    | .str text => .ok (if text.toList.head? == some '"' then '"' else '\'')
    | .arr _ => .ok '\''
    | _ => .error .wrongKind

def setText (node : Value) (text : String) : Except Fault Value := do
  let quote ← quoteOf (← node.get "raw")
  (← node.setField "value" (.str text)).setField "raw" (.str (quoteText text quote))

end ImportRedirect.Node
