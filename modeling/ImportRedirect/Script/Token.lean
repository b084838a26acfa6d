import ImportRedirect.Script.LineEnd
import ImportRedirect.Script.Tree

/-!
Reading token by token. Looking at the next token does not move the cursor, so a statement can still
end at the line break before it.
-/

namespace ImportRedirect.Script

/-- The place of the token after `count` more characters. -/
def Cursor.tokenAfter (c : Cursor) (count : Nat) : Cursor :=
  let c := c.drop count
  c.drop (triviaLength c.rest)

def Cursor.lexeme (c : Cursor) : Lexeme := Lexeme.first c.rest

def Lexeme.length : Lexeme → Nat
  | .word text | .mark text => text.length
  | .privateName length => length
  | .finish | .number | .quote _ => 0

def reservedWords : List String :=
  ["break", "case", "catch", "class", "const", "continue", "debugger", "default", "delete", "do", "else",
   "export", "extends", "false", "finally", "for", "function", "if", "import", "in", "instanceof", "new",
   "null", "return", "super", "switch", "this", "throw", "true", "try", "typeof", "var", "void", "while",
   "with"]

def isName (word : String) : Bool := !reservedWords.contains word

namespace Scan

def ahead : Scan Cursor := do return (← cursor).tokenAfter 0

def next : Scan Lexeme := do return (← ahead).lexeme

def second : Scan Lexeme := do
  let here ← ahead
  return (here.tokenAfter here.lexeme.length).lexeme

def pass (count : Nat) : Scan Unit := do
  let here ← cursor
  advance (triviaLength here.rest + count)
  settle

def unexpected {α : Type} : Scan α := do failAt (← ahead).offset

def require (condition : Bool) : Scan Unit := if condition then pure () else unexpected

def extentFrom (first : Cursor) : Scan Extent := do
  return ⟨first.offset, first.rest, (← cursor).reached⟩

def sees (lexeme : Lexeme) : Scan Bool := do return (← next) == lexeme

def accept (lexeme : Lexeme) : Scan Bool := do
  if ← sees lexeme then
    pass lexeme.length
    pure true
  else pure false

def expect (lexeme : Lexeme) : Scan Unit := do
  require (← accept lexeme)

def acceptMark (mark : String) : Scan Bool := accept (.mark mark)

def expectMark (mark : String) : Scan Unit := expect (.mark mark)

def acceptWord (word : String) : Scan Bool := accept (.word word)

def expectWord (word : String) : Scan Unit := expect (.word word)

def name : Scan Extent := do
  let first ← ahead
  match first.lexeme with
  | .word word =>
    require (isName word)
    pass word.length
    extentFrom first
  | _ => unexpected

/-- A name after which a member is called: any word, or a private name. -/
def property : Scan Extent := do
  let first ← ahead
  match first.lexeme with
  | .word word => do
    pass word.length
    extentFrom first
  | .privateName length => do
    pass length
    extentFrom first
  | _ => unexpected

def quotedText : Scan Extent := do
  let first ← ahead
  match first.lexeme with
  | .quote mark =>
    match quotedLength? mark 1 0 (first.rest.drop 1) with
    | some length => do
      pass length
      extentFrom first
    | none => unexpected
  | _ => unexpected

/-- Results of a reader as long as it gives one, `n` at most. -/
def manyWithin {α : Type} (step : Scan (Option α)) : Nat → Scan (List α)
  | 0 => pure []
  | n + 1 => do
    match ← step with
    | none => pure []
    | some a => return a :: (← manyWithin step n)

def many {α : Type} (step : Scan (Option α)) : Scan (List α) := do
  manyWithin step ((← cursor).size + 1)

/-- Items up to a closing mark, each followed by a comma or the mark. -/
def listed {α : Type} (closing : String) (item : Scan α) : Scan (List α) :=
  many do
    if ← acceptMark closing then pure none
    else do
      let a ← item
      unless ← sees (.mark closing) do expectMark ","
      pure (some a)

/-- Like `listed`, where an item may be left out before a comma. -/
def listedOrLeftOut {α : Type} (closing : String) (item : Scan α) : Scan (List (Option α)) :=
  many do
    if ← acceptMark closing then pure none
    else if ← acceptMark "," then pure (some none)
    else do
      let a ← item
      unless ← sees (.mark closing) do expectMark ","
      pure (some (some a))

/-- The end of a statement: a line end that counts as one, or a semicolon. -/
def semicolon (complete : Bool) : Scan Unit := do
  unless ← takeLineEnd complete do expectMark ";"

end Scan

end ImportRedirect.Script
