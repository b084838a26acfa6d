import ImportRedirect.Value.Display

/-!
Writing values as JSON text, in ASCII: other characters are escaped as UTF-16 units. There is a form
on one line and one with a line for every part.
-/

namespace ImportRedirect.Value.Printer

def escapeUnit (unit : Nat) : List Char := '\\' :: 'u' :: Text.Quoted.hex 4 unit

def escapeChar (c : Char) : List Char :=
  if c == '"' then ['\\', '"']
  else if c == '\\' then ['\\', '\\']
  else if c == '\n' then ['\\', 'n']
  else if c == '\r' then ['\\', 'r']
  else if c == '\t' then ['\\', 't']
  else if c == Char.ofNat 8 then ['\\', 'b']
  else if c == Char.ofNat 12 then ['\\', 'f']
  else if 32 ≤ c.toNat && c.toNat < 127 then [c]
  else if c.toNat < 0x10000 then escapeUnit c.toNat
  else
    let above := c.toNat - 0x10000
    escapeUnit (0xD800 + above / 1024) ++ escapeUnit (0xDC00 + above % 1024)

def text (s : String) : String := "\"" ++ String.ofList (s.toList.flatMap escapeChar) ++ "\""

def decimal : Decimal → String
  | .undefined => "NaN"
  | .infinite negative => if negative then "-Infinity" else "Infinity"
  | r => r.display

end Printer

mutual

def compact : Value → String
  | .null => "null"
  | .bool b => if b then "true" else "false"
  | .int i => toString i
  | .real r => Printer.decimal r
  | .moment t => Printer.text t
  | .str s => Printer.text s
  | .arr items => "[" ++ ",".intercalate (compactList items) ++ "]"
  | .obj fields => "\x7b" ++ ",".intercalate (compactFields fields) ++ "\x7d"

def compactList : List Value → List String
  | [] => []
  | v :: rest => v.compact :: compactList rest

def compactFields : List (String × Value) → List String
  | [] => []
  | (k, v) :: rest => (Printer.text k ++ ":" ++ v.compact) :: compactFields rest

end

def Printer.indent (depth : Nat) : String := String.ofList ('\n' :: List.replicate (2 * depth) ' ')

mutual

/-- The value with every item and field on a line of its own, indented by two spaces a level. -/
def pretty (depth : Nat) : Value → String
  | .null => "null"
  | .bool b => if b then "true" else "false"
  | .int i => toString i
  | .real r => Printer.decimal r
  | .moment t => Printer.text t
  | .str s => Printer.text s
  | .arr [] => "[]"
  | .arr items =>
    "[" ++ ",".intercalate (prettyList (depth + 1) items) ++ Printer.indent depth ++ "]"
  | .obj [] => "\x7b\x7d"
  | .obj fields =>
    "\x7b" ++ ",".intercalate (prettyFields (depth + 1) fields) ++ Printer.indent depth ++ "\x7d"

def prettyList (depth : Nat) : List Value → List String
  | [] => []
  | v :: rest => (Printer.indent depth ++ v.pretty depth) :: prettyList depth rest

def prettyFields (depth : Nat) : List (String × Value) → List String
  | [] => []
  | (k, v) :: rest =>
    (Printer.indent depth ++ Printer.text k ++ ": " ++ v.pretty depth) :: prettyFields depth rest

end

end ImportRedirect.Value
