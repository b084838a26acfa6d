import ImportRedirect.Script.Markup

/-!
Statements, and whole scripts.
-/

namespace ImportRedirect.Script

namespace Readers

open Scan

variable (read : Readers)

def condition : Scan Unit := do
  expectMark "("
  read.sequence .enclosed
  expectMark ")"

def body : Scan Unit := do
  let _ ← read .statement

/-- What a declaration gives a value: a name or a pattern. -/
def bindingTarget : Scan Expr := do
  let first ← ahead
  match first.lexeme with
  | .mark "\x7b" => do
    let piece ← read.object first
    require piece.target
    return .other piece.expr.extent .objectPattern
  | .mark "[" => do
    let piece ← read.array first
    require piece.target
    return .other piece.expr.extent .arrayPattern
  | _ => return .name (← name)

/-- A declared target with its value. The flag says that the declaration ended at a line end. -/
def declarator (mode : Mode) : Scan (Declarator × Bool) := do
  let first ← ahead
  let target ← read.bindingTarget
  let place ← extentFrom first
  let ended ← if mode.lineEnds then lineEnd false else pure false
  if ended then return (⟨place, target, none⟩, true)
  else if ← acceptMark "=" then do
    let piece ← read.valueIn mode
    let place ← extentFrom first
    return (⟨place, target, some piece.expr⟩, ← stops mode)
  else return (⟨place, target, none⟩, false)

def declaratorsWithin (mode : Mode) : Nat → Scan (List Declarator)
  | 0 => unexpected
  | n + 1 => do
    let (first, ended) ← read.declarator mode
    if ended then do
      settle
      pure [first]
    else if ← acceptMark "," then return first :: (← declaratorsWithin mode n)
    else do
      expectMark ";"
      pure [first]

/-- The keyword of a declaration, when the next tokens begin one. -/
def binder? : Scan (Option Binder) := do
  match ← next with
  | .word "const" => pure (some .constant)
  | .word "var" => pure (some .variable)
  | .word "let" =>
    match ← second with
    | .word word => pure (if isName word then some .lexical else none)
    | .mark "[" | .mark "\x7b" => pure (some .lexical)
    | _ => pure none
  | _ => pure none

def declarationFrom (first : Cursor) (binder : Binder) : Scan Statement := do
  pass binder.name.length
  let declarators ← read.declaratorsWithin .statement ((← cursor).size + 1)
  return .declaration (← extentFrom first) binder declarators

/-- Whether a named function begins with the token after so many characters. -/
def namesFunction (first : Cursor) (count : Nat) : Bool :=
  let keyword := first.tokenAfter count
  if keyword.lexeme == .word "function" then
    let following := keyword.tokenAfter 8
    let following := if following.lexeme == .mark "*" then following.tokenAfter 1 else following
    match following.lexeme with
    | .word word => isName word
    | _ => false
  else false

def namesClass (first : Cursor) : Bool :=
  if first.lexeme == .word "class" then
    match (first.tokenAfter 5).lexeme with
    | .word word => isName word
    | _ => false
  else false

def functionDeclaration (first : Cursor) : Scan Statement := do
  let _ ← acceptWord "async"
  expectWord "function"
  let generator ← read.function true false
  let _ ← takeLineEnd false
  return .other (← extentFrom first)
    (if generator then .generatorDeclaration else .functionDeclaration)

def classDeclaration (first : Cursor) : Scan Statement := do
  read.decorators
  expectWord "class"
  read.classTail true
  let _ ← takeLineEnd false
  return .other (← extentFrom first) .classDeclaration

/-- Whether a statement that is a name may end after the first word. -/
def mayStandAlone (first : Cursor) : Bool :=
  lineEndsWithin true (first.size + 1) (first.drop first.lexeme.length).rest

/-- Whether the next token is a word that begins declarations but is a name too, and is taken for the
name because the line ends after it. `names` says that a name may stand here. -/
def standsAlone (first : Cursor) (names : Bool) : Bool :=
  names && (first.lexeme == .word "async" || first.lexeme == .word "let") && mayStandAlone first

/-- A declaration, when the next tokens begin one. `names` says that a name may stand here too. -/
def declaration? (first : Cursor) (names : Bool) : Scan (Option Statement) := do
  if standsAlone first names then pure none
  else if namesFunction first 0 || (first.lexeme == .word "async" && namesFunction first 5) then
    return some (← read.functionDeclaration first)
  else if namesClass first || first.lexeme == .mark "@" then
    return some (← read.classDeclaration first)
  else
    match ← binder? with
    | some binder => return some (← read.declarationFrom first binder)
    | none => pure none

def exportedName : Scan Unit := do
  match ← next with
  | .quote _ => let _ ← quotedText
  | lexeme => if lexeme == .word "default" then pass 7 else let _ ← name

def exportSpecifier : Scan Unit := do
  exportedName
  if ← acceptWord "as" then exportedName

def fromClause : Scan Extent := do
  expectWord "from"
  quotedText

def exportTail : Scan Unit := do
  if ← acceptMark "*" then do
    if ← acceptWord "as" then exportedName
    let _ ← fromClause
    semicolon false
  else if ← acceptMark "\x7b" then do
    let _ ← listed "\x7d" exportSpecifier
    if ← takeLineEnd false then pure ()
    else do
      if ← sees (.word "from") then let _ ← fromClause
      semicolon false
  else if ← acceptWord "default" then do
    match ← read.declaration? (← ahead) true with
    | some _ => pure ()
    | none => do
      let _ ← read.valueIn .statement
      semicolon true
  else
    match ← read.declaration? (← ahead) false with
    | some _ => pure ()
    | none => unexpected

def importSpecifier : Scan Specifier := do
  let first ← ahead
  let renamed : Expr → Scan Specifier := fun imported => do
    expectWord "as"
    let localName ← name
    return .named (← extentFrom first) imported localName
  match first.lexeme with
  | .quote _ => renamed (.text (← quotedText))
  | lexeme =>
    if lexeme == .word "default" then do
      pass 7
      renamed (.name (← extentFrom first))
    else do
      let imported ← name
      if ← sees (.word "as") then renamed (.name imported)
      else return .named imported (.name imported) imported

def importedNames : Scan (List Specifier) := do
  let first ← ahead
  if ← acceptMark "*" then
    expectWord "as"
    let localName ← name
    return [.whole (← extentFrom first) localName]
  else do
    expectMark "\x7b"
    listed "\x7d" importSpecifier

def importClause : Scan (List Specifier) := do
  match ← next with
  | .word _ => do
    let default : Specifier := .fallback (← name)
    if ← acceptMark "," then return default :: (← importedNames) else return [default]
  | _ => importedNames

def importDeclaration (first : Cursor) : Scan Statement := do
  pass 6
  let (specifiers, source) ←
    match ← next with
    | .quote _ => do
      let source ← quotedText
      pure ([], source)
    | _ => do
      let specifiers ← importClause
      let source ← fromClause
      pure (specifiers, source)
  if ← takeLineEnd false then return .importing (← extentFrom first) specifiers source none
  else do
    let clause ← ahead
    let attributes ←
      if ← acceptWord "with" then do
        let piece ← read.object (← ahead)
        require piece.value
        let place ← extentFrom clause
        pure (some place)
      else pure none
    semicolon false
    return .importing (← extentFrom first) specifiers source attributes

/-- Condition, step and body of a counting loop, after the first semicolon of its head. -/
def loopTail : Scan Unit := do
  unless ← acceptMark ";" do
    read.sequence .enclosed
    expectMark ";"
  unless ← acceptMark ")" do
    read.sequence .enclosed
    expectMark ")"
  read.body

/-- The collection and body of a loop over its items, when that is what comes next. -/
def loopOver? : Scan Bool := do
  match ← next with
  | .word word =>
    if word == "of" || word == "in" then do
      pass 2
      read.sequence .enclosed
      expectMark ")"
      read.body
      pure true
    else pure false
  | _ => pure false

def loop (first : Cursor) : Scan Statement := do
  pass 3
  let _ ← acceptWord "await"
  expectMark "("
  let overItems ←
    if ← acceptMark ";" then do
      read.loopTail
      pure false
    else
      match ← binder? with
      | some binder => do
        pass binder.name.length
        let _ ← read.declarator .loopHead
        if ← read.loopOver? then pure true
        else do
          unless ← acceptMark ";" do
            expectMark ","
            let _ ← read.declaratorsWithin .enclosed ((← cursor).size + 1)
          read.loopTail
          pure false
      | none => do
        let piece ← read (.expression .loopHead)
        let overItems ←
          if piece.target || piece.isParenthesized then read.loopOver? else pure false
        if overItems then pure true
        else do
          require piece.value
          read.sequenceFrom .enclosed
          expectMark ";"
          read.loopTail
          pure false
  return .other (← extentFrom first) (if overItems then .forIn else .forLoop)

def switchTail : Scan Unit := do
  read.condition
  expectMark "\x7b"
  let _ ← many (α := Unit) do
    if ← acceptMark "\x7d" then pure none
    else do
      if ← acceptWord "case" then read.sequence .enclosed else expectWord "default"
      expectMark ":"
      let _ ← many (α := Unit) do
        match ← next with
        | .word "case" | .word "default" | .mark "\x7d" => pure none
        | _ => do
          read.body
          pure (some ())
      pure (some ())

def tryTail : Scan Unit := do
  read.block false
  if ← acceptWord "catch" then
    if ← acceptMark "(" then
      let _ ← read.bindingTarget
      expectMark ")"
    read.block false
  if ← acceptWord "finally" then read.block false

def expressionStatement (first : Cursor) : Scan Statement := do
  read.sequence .statement
  semicolon true
  return .other (← extentFrom first) .expression

def jumpTail : Scan Unit := do
  unless ← takeLineEnd false do
    match ← next with
    | .word _ => do
      let _ ← name
      semicolon false
    | _ => expectMark ";"

def wordStatement (first : Cursor) (word : String) : Scan Statement := do
  let plain := fun (kind : Kind) (tail : Scan Unit) => do
    pass word.length
    tail
    return Statement.other (← extentFrom first) kind
  match word with
  | "import" =>
    match ← second with
    | .mark "(" | .mark "." => read.expressionStatement first
    | _ => read.importDeclaration first
  | "export" => plain .exporting read.exportTail
  | "if" => plain .ifElse do
      read.condition
      read.body
      if ← acceptWord "else" then read.body
  | "for" => read.loop first
  | "while" => plain .whileLoop do
      read.condition
      read.body
  | "do" => plain .doWhile do
      read.body
      expectWord "while"
      read.condition
      unless ← takeLineEnd false do let _ ← acceptMark ";"
  | "switch" => plain .switching read.switchTail
  | "try" => plain .trying read.tryTail
  | "with" => plain .withScope do
      read.condition
      read.body
  | "break" => plain .breaking jumpTail
  | "continue" => plain .continuing jumpTail
  | "debugger" => plain .debugger (semicolon false)
  | "return" => plain .returning do
      unless ← takeLineEnd false do
        unless ← acceptMark ";" do
          read.sequence .statement
          semicolon true
  | "throw" => plain .throwing do
      read.sequence .statement
      semicolon true
  | _ =>
    if isName word && (← second) == .mark ":" then plain .labeled do
      expectMark ":"
      read.body
    else read.expressionStatement first

def statement : Scan Statement := do
  let first ← ahead
  match first.lexeme with
  | .mark ";" => do
    pass 1
    pure .empty
  | .mark "\x7b" => do
    read.block false
    return .other (← extentFrom first) .block
  | .mark "@" => do
    read.decorators
    if ← acceptWord "export" then
      read.exportTail
      return .other (← extentFrom first) .exporting
    else read.classDeclaration first
  | lexeme =>
    match ← read.declaration? first true with
    | some declared => pure declared
    | none =>
      match lexeme with
      | .word word => read.wordStatement first word
      | _ => read.expressionStatement first

end Readers

/-- The reader of each goal, with the depth of nesting bounded. -/
def reader : Nat → Readers
  | 0, _ => Scan.unexpected
  | depth + 1, .statement => (reader depth).statement
  | depth + 1, .expression mode => (reader depth).expression mode
  | depth + 1, .operand mode => (reader depth).operand mode
  | depth + 1, .constructor mode => (reader depth).constructor mode
  | depth + 1, .markup => (reader depth).markup

def passInterpreterLine : Scan Unit := do
  let first ← Scan.ahead
  match first.rest with
  | '#' :: '!' :: rest => Scan.pass (2 + (rest.takeWhile (· != '\n')).length)
  | _ => pure ()

def scriptWith (read : Readers) : Scan (List Statement) := do
  passInterpreterLine
  Scan.many do
    if ← Scan.sees .finish then pure none else return some (← read .statement)

/-- Reads a script, or says at which byte it stops making sense. A token opens at most two levels
of nesting, which bounds the depth. -/
def parse (code : String) : Except Nat Tree :=
  let text := code.toList
  match scriptWith (reader (2 * text.length + 16)) (Cursor.start text) with
  | .error offset => .error offset
  | .ok outcome => .ok ⟨outcome.val.1, byteLength text⟩

end ImportRedirect.Script
