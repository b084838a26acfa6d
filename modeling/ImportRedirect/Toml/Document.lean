import ImportRedirect.Toml.Number

/-!
TOML documents. A document is a table of tables. What an array or a table within one line holds is
final, and a table has at most one header.
-/

namespace ImportRedirect.Toml

abbrev Table : Type := List (String × Value)

/-- Changes the table that a key leads to, and makes it when it is missing. In a list of tables the
last one is meant, where lists may be entered at all. -/
def changeAt (entersLists : Bool) (change : Table → Option Table) : Key → Table → Option Table
  | [], table => change table
  | name :: key, table => do
    match Value.lookup name table with
    | none => return Value.insert name (.obj (← changeAt entersLists change key [])) table
    | some (.obj inner) =>
      return Value.insert name (.obj (← changeAt entersLists change key inner)) table
    | some (.arr items) =>
      match entersLists, items.getLast? with
      | true, some (.obj inner) =>
        let inner ← changeAt entersLists change key inner
        return Value.insert name (.arr (items.dropLast ++ [.obj inner])) table
      | _, _ => none
    | some _ => none

def addField (name : String) (value : Value) (table : Table) : Option Table :=
  if (Value.lookup name table).isSome then none else some (table ++ [(name, value)])

def addTable (name : String) (table : Table) : Option Table :=
  match Value.lookup name table with
  | none => some (table ++ [(name, .arr [.obj []])])
  | some (.arr items) => some (Value.insert name (.arr (items ++ [.obj []])) table)
  | some _ => none

def isBelow (others : List Key) (key : Key) : Bool := others.any (·.isPrefixOf key)

/-- Lists and tables written as values are final. -/
def isContainer : Value → Bool
  | .arr _ | .obj _ => true
  | _ => false

def addAt (entersLists : Bool) (key : Key) (value : Value) (table : Table) : Option Table := do
  let name ← key.getLast?
  changeAt entersLists (addField name value) key.dropLast table

def skipComment? : List Char → Option (List Char)
  | '#' :: rest =>
    let comment := rest.takeWhile (· != '\n')
    if comment.any (isForbidden false) then none else some (rest.drop comment.length)
  | cs => some cs

def skipLines? : Nat → List Char → Option (List Char)
  | 0, cs => some cs
  | fuel + 1, cs =>
    match cs.dropWhile isSpaceOrNewline with
    | '#' :: rest => (skipComment? ('#' :: rest)).bind (skipLines? fuel)
    | rest => some rest

mutual

def value? : Nat → List Char → Option (Value × List Char)
  | 0, _ => none
  | fuel + 1, cs =>
    match cs with
    | 't' :: 'r' :: 'u' :: 'e' :: rest => some (.bool true, rest)
    | 'f' :: 'a' :: 'l' :: 's' :: 'e' :: rest => some (.bool false, rest)
    | '"' :: _ | '\'' :: _ => (text? cs).map fun (text, rest) => (.str text, rest)
    | '[' :: rest =>
      match skipLines? rest.length rest with
      | some (']' :: rest) => some (.arr [], rest)
      | some rest => items? [] fuel rest
      | none => none
    | '\x7b' :: rest =>
      match skipSpace rest with
      | '\x7d' :: rest => some (.obj [], rest)
      | rest => fields? [] [] fuel rest
    | _ => number? cs

/-- The items of an array up to its closing bracket; a comma may follow the last one. -/
def items? (done : List Value) : Nat → List Char → Option (Value × List Char)
  | 0, _ => none
  | fuel + 1, cs => do
    let (value, rest) ← value? fuel cs
    match ← skipLines? rest.length rest with
    | ']' :: rest => return (.arr (value :: done).reverse, rest)
    | ',' :: rest =>
      match ← skipLines? rest.length rest with
      | ']' :: rest => return (.arr (value :: done).reverse, rest)
      | rest => items? (value :: done) fuel rest
    | _ => none

/-- The fields of a table up to its closing brace. What the keys in `final` lead to is final. -/
def fields? (table : Table) (final : List Key) : Nat → List Char → Option (Value × List Char)
  | 0, _ => none
  | fuel + 1, cs => do
    let (key, rest) ← key? cs
    let (value, rest) ← value? fuel (skipSpace (← after? '=' rest))
    if isBelow final key then none
    else
      let table ← addAt false key value table
      match skipSpace rest with
      | '\x7d' :: rest => return (.obj table, rest)
      | ',' :: rest =>
        fields? table (if isContainer value then key :: final else final) fuel (skipSpace rest)
      | _ => none

end

structure Draft where
  table : Table
  header : Key
  /-- Keys of tables that may have no header and no dotted keys any more. -/
  closed : List Key
  /-- Keys of tables that dotted keys opened; they are closed by the next header. -/
  opened : List Key
  /-- Keys of arrays and tables written as values. -/
  final : List Key

namespace Draft

def empty : Draft := ⟨[], [], [], [], []⟩

def closeOpened (draft : Draft) : Draft :=
  { draft with closed := draft.opened ++ draft.closed, opened := [] }

def beginTable (draft : Draft) (key : Key) : Option Draft := do
  if draft.closed.contains key || isBelow draft.final key then none
  else
    let table ← changeAt true some key draft.table
    return { draft with table, header := key, closed := key :: draft.closed }

/-- Begins another table of a list; what was said about an earlier one no longer holds. -/
def beginItem (draft : Draft) (key : Key) : Option Draft := do
  if isBelow draft.final key then none
  else
    let name ← key.getLast?
    let table ← changeAt true (addTable name) key.dropLast draft.table
    return { draft with
      table, header := key
      closed := key :: draft.closed.filter (!key.isPrefixOf ·)
      final := draft.final.filter (!key.isPrefixOf ·) }

def between (draft : Draft) (key : Key) : List Key :=
  (List.range (key.length - 1)).map fun count => draft.header ++ key.take (count + 1)

def addField (draft : Draft) (key : Key) (value : Value) : Option Draft := do
  let parents := draft.between key
  let whole := draft.header ++ key
  if parents.any draft.closed.contains || isBelow draft.final whole.dropLast then none
  else
    let table ← addAt true whole value draft.table
    return { draft with
      table
      opened := parents ++ draft.opened
      final := if isContainer value then whole :: draft.final else draft.final }

def statement? (draft : Draft) : List Char → Option (Draft × List Char)
  | [] => some (draft, [])
  | '\n' :: rest => some (draft, '\n' :: rest)
  | '#' :: rest => some (draft, '#' :: rest)
  | '[' :: '[' :: rest => do
    let (key, rest) ← key? (skipSpace rest)
    let rest ← after? ']' (← after? ']' rest)
    return (← draft.closeOpened.beginItem key, rest)
  | '[' :: rest => do
    let (key, rest) ← key? (skipSpace rest)
    let rest ← after? ']' rest
    return (← draft.closeOpened.beginTable key, rest)
  | cs => do
    let (key, rest) ← key? cs
    let rest := skipSpace (← after? '=' rest)
    let (value, rest) ← value? (2 * rest.length + 2) rest
    return (← draft.addField key value, rest)

def lines? (draft : Draft) : Nat → List Char → Option Draft
  | 0, _ => none
  | fuel + 1, cs => do
    let (draft, rest) ← draft.statement? (skipSpace cs)
    match ← skipComment? (skipSpace rest) with
    | [] => return draft
    | '\n' :: rest => draft.lines? fuel rest
    | _ => none

end Draft

/-- A carriage return before a newline is no part of the document. -/
def unifyLines : List Char → List Char
  | '\r' :: '\n' :: rest => '\n' :: unifyLines rest
  | c :: rest => c :: unifyLines rest
  | [] => []

def parse? (text : String) : Option Table :=
  let cs := unifyLines text.toList
  (Draft.empty.lines? (cs.length + 1) cs).map (·.table)

end ImportRedirect.Toml
