import ImportRedirect.Script.Expression

/-!
Markup elements among expressions: tags with attributes, text, and expressions in braces.
-/

namespace ImportRedirect.Script

def markupNameLength (ahead : List Char) : Nat :=
  let plain := nameLength ahead
  if plain != 0 && (ahead.drop plain).head? == some '-' then
    plain + ((ahead.drop plain).takeWhile fun c =>
      c == '-' || c == '_' || c == '$' || c.isAlphanum).length
  else plain

def referenceLength? (ahead : List Char) : Option Nat :=
  let closed := fun (intro : Nat) (most : Nat) (isPart : Char → Bool) =>
    let parts := ((ahead.drop intro).takeWhile isPart).length
    if 0 < parts && parts ≤ most && (ahead.drop (intro + parts)).head? == some ';' then
      some (intro + parts + 1)
    else none
  match ahead with
  | '#' :: 'x' :: _ | '#' :: 'X' :: _ => closed 2 6 isHexDigit
  | '#' :: _ => closed 1 5 Char.isDigit
  | _ => closed 0 30 Char.isAlpha

namespace Readers

open Scan

variable (read : Readers)

def seesText (text : String) : Scan Bool := do
  return text.toList.isPrefixOf (← ahead).rest

def acceptText (text : String) : Scan Bool := do
  if ← seesText text then
    pass text.length
    pure true
  else pure false

def markupPart : Scan Unit := do
  let length := markupNameLength (← ahead).rest
  require (length != 0)
  pass length

def markupName : Scan Unit := do
  markupPart
  let _ ← many (α := Unit) do
    match ← next with
    | .mark "." | .mark ":" => do
      pass 1
      markupPart
      pure (some ())
    | _ => pure none

def markupBraces : Scan Unit := do
  expectMark "\x7b"
  unless ← acceptText "\x7d" do
    let piece ← read.spreadable
    require piece.value
    read.sequenceFrom .enclosed
    require (← acceptText "\x7d")

def markupAttributeValue : Scan Unit := do
  let first ← ahead
  match first.lexeme with
  | .quote mark => do
    let length := ((first.rest.drop 1).takeWhile (· != mark)).length
    require (length + 1 < first.rest.length)
    pass (length + 2)
  | lexeme => if lexeme == .mark "\x7b" then read.markupBraces else let _ ← read .markup

def markupAttributes : Scan Unit := do
  let _ ← many (α := Unit) do
    if (← seesText ">") || (← seesText "/>") then pure none
    else do
      if ← sees (.mark "\x7b") then read.markupBraces
      else do
        markupName
        if ← acceptText "=" then read.markupAttributeValue
      pure (some ())

/-- Text, expressions and elements up to and with the closing tag. -/
def markupChildren : Scan Unit := do
  let _ ← many (α := Unit) do
    let here ← cursor
    advance (here.rest.takeWhile (!"<>&\x7b\x7d".toList.contains ·)).length
    let here ← cursor
    match here.rest with
    | '<' :: '/' :: _ => do
      pass 2
      unless ← seesText ">" do markupName
      require (← acceptText ">")
      pure none
    | '<' :: _ => do
      let _ ← read .markup
      pure (some ())
    | '\x7b' :: _ => do
      read.markupBraces
      pure (some ())
    | '&' :: rest =>
      match referenceLength? rest with
      | some length => do
        advance (length + 1)
        pure (some ())
      | none => unexpected
    | _ => unexpected

def markup : Scan Piece := do
  let first ← ahead
  require (← acceptText "<")
  if ← acceptText ">" then
    read.markupChildren
    return .ofValue (.other (← extentFrom first) .markup)
  else do
    markupName
    read.markupAttributes
    if ← acceptText "/>" then return .ofValue (.other (← extentFrom first) .markupClosed)
    else do
      require (← acceptText ">")
      read.markupChildren
      return .ofValue (.other (← extentFrom first) .markup)

end Readers

end ImportRedirect.Script
