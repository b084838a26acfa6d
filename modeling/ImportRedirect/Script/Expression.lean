import ImportRedirect.Script.Token

/-!
Expressions. Lists, objects and parentheses are read before it is known whether they are values,
assignment targets or parameters, so each piece carries what it may still turn out to be. Readers
that call themselves do so through `Readers`, which is tied together in one place.
-/

namespace ImportRedirect.Script

/-- How an expression ends: at a line end that counts as one, and before the word that heads a loop
over a collection. -/
structure Mode where
  lineEnds : Bool
  beforeIn : Bool

namespace Mode

def enclosed : Mode := ⟨false, false⟩

def statement : Mode := ⟨true, false⟩

def loopHead : Mode := ⟨false, true⟩

end Mode

structure Piece where
  expr : Expr
  value : Bool
  /-- Something can be assigned to it. -/
  target : Bool
  /-- It can be a parameter or an element of a pattern. -/
  element : Bool

namespace Piece

def ofValue (expr : Expr) : Piece := ⟨expr, true, false, false⟩

def ofTarget (expr : Expr) : Piece := ⟨expr, true, true, true⟩

def isParenthesized (piece : Piece) : Bool :=
  match piece.expr with
  | .other _ .parenthesized => true
  | _ => false

def isPattern (piece : Piece) : Bool :=
  match piece.expr with
  | .other _ .object | .other _ .array => true
  | _ => false

end Piece

inductive Goal where
  | statement
  | expression (mode : Mode)
  | operand (mode : Mode)
  /-- What stands after `new`, without its arguments. -/
  | constructor (mode : Mode)
  | markup

abbrev Goal.Result : Goal → Type
  | .statement => Statement
  | .expression _ | .operand _ | .constructor _ | .markup => Piece

abbrev Readers : Type := (goal : Goal) → Scan goal.Result

namespace Readers

open Scan

variable (read : Readers)

def valueIn (mode : Mode) : Scan Piece := do
  let piece ← read (.expression mode)
  require piece.value
  pure piece

def stops (mode : Mode) : Scan Bool :=
  if mode.lineEnds then lineEnd true else pure false

/-- Values with commas between them; the flag says that there are several. -/
def sequenceFrom (mode : Mode) : Scan Unit := do
  let _ ← many (α := Unit) do
    if ← stops mode then pure none
    else if ← acceptMark "," then do
      let _ ← read.valueIn mode
      pure (some ())
    else pure none

def sequence (mode : Mode) : Scan Unit := do
  let _ ← read.valueIn mode
  read.sequenceFrom mode

/-- Statements in braces. `complete` says that the block ends an expression. -/
def block (complete : Bool) : Scan Unit := do
  expectMark "\x7b"
  let _ ← many do
    if ← acceptMark "\x7d" then pure none
    else return some (← read .statement)
  let _ ← takeLineEnd complete

def spreadable : Scan Piece := do
  let first ← ahead
  if ← acceptMark "..." then
    let piece ← read (.expression .enclosed)
    return ⟨.other (← extentFrom first) .spread, piece.value, piece.target, piece.target⟩
  else read (.expression .enclosed)

def parameters : Scan Unit := do
  expectMark "("
  let pieces ← listed ")" read.spreadable
  require (pieces.all (·.element))

def arguments : Scan (List (Option Piece)) := do
  expectMark "("
  listedOrLeftOut ")" read.spreadable

def arrowFrom (first : Cursor) (mode : Mode) : Scan Piece := do
  expectMark "=>"
  if ← sees (.mark "\x7b") then read.block true
  else let _ ← read.valueIn mode
  return .ofValue (.other (← extentFrom first) .arrow)

def template : Scan Unit := do
  let _ ← many (α := Unit) do
    let here ← cursor
    match templateLength? 0 0 here.rest with
    | none => unexpected
    | some (length, closed) => do
      advance length
      settle
      if closed then pure none
      else do
        read.sequence .enclosed
        unless ← sees (.mark "\x7d") do unexpected
        pass 1
        pure (some ())

def memberName : Scan Unit := do
  let first ← ahead
  match first.lexeme with
  | .word _ | .privateName _ => let _ ← property
  | .quote _ => let _ ← quotedText
  | .number => pass (numberLength first.rest)
  | .mark mark =>
    if mark == "[" then do
      pass 1
      let _ ← read.valueIn .enclosed
      expectMark "]"
    else unexpected
  | .finish => unexpected

def method : Scan Unit := do
  read.parameters
  read.block false

def modifiers : List String := ["static", "async", "get", "set"]

/-- Marks after which a modifier is itself the name of a member. -/
def endsMemberName : Lexeme → Bool
  | .mark "(" | .mark ":" | .mark "," | .mark "=" | .mark ";" | .mark "\x7d" => true
  | _ => false

/-- Passes the modifiers of a method, `n` at most. -/
def passModifiers : Nat → Scan Unit
  | 0 => pure ()
  | n + 1 => do
    match ← next with
    | .mark "*" => pass 1
    | .word word =>
      if modifiers.contains word && !endsMemberName (← second) then
        pass word.length
        passModifiers n
      else pure ()
    | _ => pure ()

def objectMember : Scan Piece := do
  let first ← ahead
  let plain := fun (value target : Bool) => do
    return (⟨.other (← extentFrom first) .object, value, target, target⟩ : Piece)
  let pairOrMethod := do
    passModifiers 4
    read.memberName
    if ← acceptMark ":" then
      let piece ← read (.expression .enclosed)
      plain piece.value piece.element
    else do
      read.method
      plain true false
  match first.lexeme with
  | .mark "..." => read.spreadable
  | .word _ =>
    match ← second with
    | .mark "," | .mark "\x7d" => do
      let _ ← name
      plain true true
    | .mark "=" => do
      let _ ← name
      pass 1
      let _ ← read.valueIn .enclosed
      plain false true
    | _ => pairOrMethod
  | _ => pairOrMethod

/-- A list or an object, after its opening mark: a value, a pattern, or both. -/
def collection (first : Cursor) (kind : Kind) (closing : String) (item : Scan Piece) :
    Scan Piece := do
  let pieces := (← listedOrLeftOut closing item).filterMap id
  let target := pieces.all (·.element)
  return ⟨.other (← extentFrom first) kind, pieces.all (·.value), target, target⟩

def object (first : Cursor) : Scan Piece := do
  expectMark "\x7b"
  collection first .object "\x7d" read.objectMember

def array (first : Cursor) : Scan Piece := do
  expectMark "["
  collection first .array "]" read.spreadable

def parenthesized (first : Cursor) (mode : Mode) : Scan Piece := do
  expectMark "("
  let pieces ← many do
    if ← acceptMark ")" then pure none
    else do
      let spread ← sees (.mark "...")
      let piece ← read.spreadable
      let last ← sees (.mark ")")
      unless last do expectMark ","
      pure (some (piece, piece.value && !spread, last))
  if ← sees (.mark "=>") then
    require (pieces.all (·.1.element))
    read.arrowFrom first mode
  else do
    require (pieces.all (·.2.1) && (pieces.getLast?.any (·.2.2)))
    return .ofValue (.other (← extentFrom first) .parenthesized)

/-- A function after its keyword; `named` says that it must have a name. -/
def function (named complete : Bool) : Scan Bool := do
  let generator ← acceptMark "*"
  match ← next with
  | .word _ => let _ ← name
  | _ => require !named
  read.parameters
  read.block complete
  pure generator

def decorators : Scan Unit := do
  let _ ← many (α := Unit) do
    if ← acceptMark "@" then do
      let _ ← name
      let _ ← many (α := Unit) do
        if ← acceptMark "." then do
          let _ ← property
          pure (some ())
        else pure none
      if ← sees (.mark "(") then let _ ← read.arguments
      pure (some ())
    else pure none

def fieldTail : Scan Unit := do
  if ← takeLineEnd false then pure ()
  else if ← acceptMark "=" then do
    let _ ← read.valueIn .statement
    semicolon true
  else expectMark ";"

/-- A member of a class whose modifiers, `n` at most, are read first. -/
def classMemberFrom : Nat → Scan Unit
  | 0 => unexpected
  | n + 1 => do
    match ← next with
    | .word word =>
      pass word.length
      if modifiers.contains word then
        if ← takeLineEnd false then pure ()
        else if word == "static" && (← sees (.mark "\x7b")) then read.block false
        else if endsMemberName (← next) then tail
        else classMemberFrom n
      else tail
    | .mark "*" => do
      pass 1
      read.memberName
      tail
    | _ => do
      read.memberName
      tail
where
  tail : Scan Unit := do
    if ← sees (.mark "(") then read.method else read.fieldTail

def classTail (named : Bool) : Scan Unit := do
  match ← next with
  | .word word => if word == "extends" then require !named else let _ ← name
  | _ => require !named
  if ← acceptWord "extends" then let _ ← read.valueIn .enclosed
  expectMark "\x7b"
  let _ ← many (α := Unit) do
    if ← acceptMark "\x7d" then pure none
    else if ← acceptMark ";" then pure (some ())
    else do
      read.decorators
      read.classMemberFrom 5
      pure (some ())

/-- What comes after `import` or in the place of a call's function: a call. -/
def callFrom (first : Cursor) (callee : Expr) (optional : Bool) : Scan Piece := do
  let given := (← read.arguments).filterMap id
  require (given.all (·.value))
  return .ofValue (.call (← extentFrom first) callee (given.map (·.expr)) optional)

def memberFrom (first : Cursor) (object : Expr) (optional : Bool) : Scan Piece := do
  let member ← property
  return .ofTarget (.member (← extentFrom first) object member optional)

def subscriptFrom (first : Cursor) : Scan Piece := do
  expectMark "["
  read.sequence .enclosed
  expectMark "]"
  return .ofTarget (.other (← extentFrom first) .subscript)

def taggedFrom (first : Cursor) : Scan Piece := do
  pass 1
  read.template
  return .ofValue (.other (← extentFrom first) .call)

/-- What may follow an operand, `n` times at most: members, calls, templates and updates. With
`calls` unset only what may stand in the place of a constructor. -/
def followedFrom (first : Cursor) (mode : Mode) (calls : Bool) : Nat → Piece → Scan Piece
  | 0, left => pure left
  | n + 1, left => do
    if !left.value then pure left
    else if ← stops mode then pure left
    else
      match ← next with
      | .mark "." => do
        pass 1
        followedFrom first mode calls n (← memberFrom first left.expr false)
      | .mark "?." => do
        pass 2
        match ← next with
        | .mark "[" => followedFrom first mode calls n (← read.subscriptFrom first)
        | .mark "(" =>
          if calls then followedFrom first mode calls n (← read.callFrom first left.expr true)
          else unexpected
        | _ => followedFrom first mode calls n (← memberFrom first left.expr true)
      | .mark "[" => followedFrom first mode calls n (← read.subscriptFrom first)
      | .mark "(" =>
        if calls then followedFrom first mode calls n (← read.callFrom first left.expr false)
        else pure left
      | .mark "\x60" => followedFrom first mode calls n (← read.taggedFrom first)
      | .mark "++" | .mark "--" =>
        if calls then do
          pass 2
          followedFrom first mode calls n (.ofValue (.other (← extentFrom first) .update))
        else pure left
      | _ => pure left

def followed (first : Cursor) (mode : Mode) (calls : Bool) (left : Piece) : Scan Piece := do
  read.followedFrom first mode calls ((← cursor).size + 1) left

def creation (first : Cursor) (mode : Mode) : Scan Piece := do
  if ← acceptMark "." then
    expectWord "target"
    return .ofValue (.other (← extentFrom first) .metaProperty)
  else do
    let callee ← read (.constructor mode)
    require callee.value
    unless ← stops mode do
      if ← sees (.mark "(") then
        require ((← read.arguments).all (Option.all (·.value)))
    return .ofValue (.other (← extentFrom first) .creation)

/-- `async` and what it heads, after the word. -/
def asyncFrom (first : Cursor) (word : Extent) (mode : Mode) : Scan Piece := do
  let alone : Piece := .ofTarget (.name word)
  if ← sees (.mark "=>") then read.arrowFrom first mode
  else if ← stops mode then pure alone
  else
    match ← next with
    | .word "function" => do
      pass 8
      let generator ← read.function false true
      return .ofValue (.other (← extentFrom first)
        (if generator then .generatorExpression else .functionExpression))
    | .word other =>
      if isName other && (← second) == .mark "=>" then do
        pass other.length
        read.arrowFrom first mode
      else pure alone
    | .mark "(" => do
      let given ← read.arguments
      if ← sees (.mark "=>") then
        require (given.all (Option.any (·.element)))
        read.arrowFrom first mode
      else do
        let given := given.filterMap id
        require (given.all (·.value))
        return .ofValue (.call (← extentFrom first) (.name word) (given.map (·.expr)) false)
    | _ => pure alone

/-- `import` where a value is expected, after the word. -/
def importFrom (first : Cursor) (word : Extent) : Scan Piece := do
  let callee : Expr := .other word .importCallee
  if ← acceptMark "." then
    if ← acceptWord "meta" then
      return .ofValue (.other (← extentFrom first) .metaProperty)
    else memberFrom first callee false
  else read.callFrom first callee false

def wordOperand (first : Cursor) (mode : Mode) (word : String) : Scan Piece := do
  let plain := fun (kind : Kind) => do
    pass word.length
    return Piece.ofValue (.other (← extentFrom first) kind)
  match word with
  | "true" => plain .truth
  | "false" => plain .falsity
  | "null" => plain .null
  | "this" => plain .this
  | "super" => plain .super
  | "function" => do
    pass 8
    let generator ← read.function false true
    return .ofValue (.other (← extentFrom first)
      (if generator then .generatorExpression else .functionExpression))
  | "class" => do
    pass 5
    read.classTail false
    return .ofValue (.other (← extentFrom first) .classExpression)
  | "new" => do
    pass 3
    read.creation first mode
  | "import" => do
    pass 6
    read.importFrom first (← extentFrom first)
  | "async" => do
    pass 5
    read.asyncFrom first (← extentFrom first) mode
  | _ => do
    let word ← name
    if ← sees (.mark "=>") then read.arrowFrom first mode
    else if word.text == "undefined" then return .ofTarget (.other word .undefined)
    else return .ofTarget (.name word)

def primary (mode : Mode) : Scan Piece := do
  let first ← ahead
  match first.lexeme with
  | .word word => read.wordOperand first mode word
  | .number => do
    pass (numberLength first.rest)
    return .ofValue (.other (← extentFrom first) .number)
  | .quote _ => return .ofValue (.text (← quotedText))
  | .mark "(" => read.parenthesized first mode
  | .mark "[" => read.array first
  | .mark "\x7b" => read.object first
  | .mark "\x60" => do
    pass 1
    read.template
    return .ofValue (.other (← extentFrom first) .template)
  | .mark "/" | .mark "/=" =>
    match regexLength? (first.rest.drop 1) with
    | some length => do
      pass (length + 1)
      return .ofValue (.other (← extentFrom first) .regex)
    | none => unexpected
  | .mark "@" => do
    read.decorators
    expectWord "class"
    read.classTail false
    return .ofValue (.other (← extentFrom first) .classExpression)
  | .mark mark => if mark.front == '<' then read .markup else unexpected
  | _ => unexpected

def unaryMarks : List String := ["!", "~", "-", "+"]

def unaryWords : List String := ["typeof", "void", "delete"]

/-- Marks and words before which `yield` stands alone. -/
def endsOperand : Lexeme → Bool
  | .finish => true
  | .mark mark => [")", "]", "\x7d", ",", ";", ":"].contains mark
  | .word word => ["in", "of"].contains word
  | _ => false

def assignment (first : Cursor) (mode : Mode) (left : Piece) : Scan Piece := do
  let augmented :=
    match left.expr with
    | .name _ | .member .. | .other _ .subscript | .other _ .parenthesized => true
    | _ => false
  if ← stops mode then pure left
  else
    match ← next with
    | .mark "=" =>
      if left.target || left.isParenthesized then do
        pass 1
        let _ ← read.valueIn mode
        return ⟨.other (← extentFrom first) .assignment, true, false, left.target⟩
      else pure left
    | .mark mark =>
      if augmented && ["+=", "-=", "*=", "/=", "%=", "^=", "&=", "|=", ">>=", ">>>=", "<<=", "**=",
          "&&=", "||=", "??="].contains mark then do
        pass mark.length
        let _ ← read.valueIn mode
        return .ofValue (.other (← extentFrom first) .augmentedAssignment)
      else pure left
    | _ => pure left

/-- An expression without binary operators: an operand with what goes before and after it. -/
def operand (mode : Mode) : Scan Piece := do
  let first ← ahead
  let before := fun (length : Nat) (kind : Kind) => do
    pass length
    let inner ← read (.operand mode)
    require inner.value
    return Piece.ofValue (.other (← extentFrom first) kind)
  let plain := do
    let left ← read.primary mode
    let left ← read.followed first mode true left
    read.assignment first mode left
  match first.lexeme with
  | .mark mark =>
    if unaryMarks.contains mark then before mark.length .unary
    else if mark == "++" || mark == "--" then before 2 .update
    else plain
  | .word word =>
    if unaryWords.contains word then before word.length .unary
    else if word == "await" then before 5 .awaiting
    else if word == "yield" then do
      pass 5
      if ← acceptMark "*" then let _ ← read.valueIn mode
      else unless ← stops mode do
        unless endsOperand (← next) do let _ ← read.valueIn mode
      return .ofValue (.other (← extentFrom first) .yielding)
    else plain
  | _ => plain

def binaryMarks : List String :=
  ["&&", "||", "??", ">>", ">>>", "<<", "&", "^", "|", "+", "-", "*", "/", "%", "**", "<", "<=", "==",
   "===", "!=", "!==", ">=", ">"]

def isBinary (mode : Mode) : Lexeme → Bool
  | .mark mark => binaryMarks.contains mark
  | .word word => word == "instanceof" || (word == "in" && !mode.beforeIn)
  | _ => false

/-- Operators and their right sides; whether there was one. -/
def binaryTail (mode : Mode) : Scan Bool := do
  let rights ← many (α := Unit) do
    if ← stops mode then pure none
    else do
      let operator ← next
      if isBinary mode operator then do
        pass operator.length
        require (← read (.operand mode)).value
        pure (some ())
      else pure none
  return !rights.isEmpty

def expression (mode : Mode) : Scan Piece := do
  let first ← ahead
  let left ←
    match first.lexeme with
    | .privateName length => do
      pass length
      require (← sees (.word "in"))
      pure (.ofValue (.other (← extentFrom first) .binary))
    | _ => read.operand mode
  if !left.value then pure left
  else do
    let compound ← read.binaryTail mode
    if ← stops mode then finish first left compound
    else if ← acceptMark "?" then do
      let _ ← read.valueIn .enclosed
      expectMark ":"
      let _ ← read.valueIn mode
      return .ofValue (.other (← extentFrom first) .ternary)
    else finish first left compound
where
  finish (first : Cursor) (left : Piece) (compound : Bool) : Scan Piece := do
    if compound then return .ofValue (.other (← extentFrom first) .binary) else pure left

/-- What `new` creates: an operand without calls, or another `new`. -/
def constructor (mode : Mode) : Scan Piece := do
  let first ← ahead
  let left ← read.primary mode
  read.followed first mode false left

end Readers

end ImportRedirect.Script
