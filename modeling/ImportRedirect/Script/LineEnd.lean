import ImportRedirect.Script.Cursor
import ImportRedirect.Script.Lexeme
import ImportRedirect.Text.Word

/-!
Where a statement may end without a semicolon: before a closing brace, at the end of the script, and
at a line break after which the next line cannot carry on the statement.
-/

namespace ImportRedirect.Script

/-- Blanks that may stand before a line break; no-break spaces are not among them. -/
def lineBlankRanges : Text.Ranges :=
  [(9, 13), (32, 32), (5760, 5760), (8192, 8198), (8200, 8202), (8232, 8233), (8287, 8287),
   (12288, 12288)]

def isLineBlank (c : Char) : Bool := lineBlankRanges.holds c

def isLineBreak (c : Char) : Bool := c == '\n' || c == '\u2028' || c == '\u2029'

inductive Gap where
  /-- A slash that begins no comment. -/
  | refused
  /-- A block comment that stays on its line. -/
  | sameLine (ahead : List Char)
  | passed (ahead : List Char)

/-- Where a reader of a gap stands; the flag says whether a block comment held a line break. -/
inductive GapReader where
  | between (broken : Bool)
  | lineComment (broken : Bool)
  | blockComment (broken : Bool)

/-- Reads blanks and comments, all of them or only to the end of the first block comment. -/
def GapReader.read (all : Bool) : GapReader → List Char → Gap
  | .between _, [] => .passed []
  | .between broken, '/' :: '/' :: rest => read all (.lineComment broken) rest
  | .between broken, '/' :: '*' :: rest => read all (.blockComment broken) rest
  | .between broken, c :: rest =>
    if c == '/' then .refused
    else if isLineBlank c then read all (.between broken) rest
    else .passed (c :: rest)
  | .lineComment _, [] => .passed []
  | .lineComment broken, c :: rest =>
    read all (if isLineBreak c then .between broken else .lineComment broken) rest
  | .blockComment _, [] => .passed []
  | .blockComment broken, '*' :: '/' :: rest =>
    if all || rest.head? == some '/' then read all (.between broken) rest
    else if broken then .passed rest
    else .sameLine rest
  | .blockComment broken, c :: rest => read all (.blockComment (broken || isLineBreak c)) rest

def isLetter (c : Char) : Bool := c.isAlpha || (128 ≤ c.toNat && Text.isWord c)

/-- Whether a line that starts like this begins a statement of its own. -/
def startsAfresh : List Char → Bool
  | [] => true
  | '.' :: rest => rest.head?.any Char.isDigit
  | '+' :: rest => rest.head? == some '+'
  | '-' :: rest => rest.head? == some '-'
  | '!' :: rest => rest.head? != some '='
  | 'i' :: 'n' :: rest =>
    let operator := "stanceof".toList
    if !rest.head?.any isLetter then false
    else if operator.isPrefixOf rest then (rest.drop operator.length).head?.any isLetter
    else true
  | c :: _ => !"\x60,:;*%><=[(?^|&/".toList.contains c

/-- Whether a statement may end before these characters, with `n` bounding their number.
`complete` says that an expression was just completed, which a comment does not end. -/
def lineEndsFrom (complete : Bool) : Nat → List Char → Bool
  | 0, _ => false
  | _, [] => true
  | n + 1, c :: rest =>
    let onLine : List Char → Bool
      | [] => false
      | c :: rest =>
        if c == '}' then true
        else if isLineBreak c then
          match GapReader.read true (.between false) rest with
          | .refused => false
          | .sameLine ahead | .passed ahead => startsAfresh ahead
        else if isLineBlank c then lineEndsFrom complete n rest
        else false
    if c == '/' then
      match GapReader.read false (.between false) (c :: rest) with
      | .refused => false
      | .sameLine ahead => onLine ahead
      | .passed ahead =>
        if !complete && ahead.head? != some ',' && ahead.head? != some '=' then true else onLine ahead
    else onLine (c :: rest)

/-- Whether a statement may end before these characters, or after one of the next `n` comments. -/
def lineEndsWithin (complete : Bool) : Nat → List Char → Bool
  | 0, _ => false
  | n + 1, ahead =>
    lineEndsFrom complete (ahead.length + 1) ahead ||
      match commentLength? ahead with
      | some length => lineEndsWithin complete n (ahead.drop length)
      | none => false

namespace Scan

/-- Whether a statement may end here, or after one of the next `n` comments, which are passed. -/
def lineEndWithin (complete : Bool) : Nat → Scan Bool
  | 0 => pure false
  | n + 1 => do
    let here ← cursor
    if lineEndsFrom complete (here.size + 1) here.rest then pure true
    else
      match commentLength? here.rest with
      | some length => do
        advance length
        lineEndWithin complete n
      | none => pure false

def lineEnd (complete : Bool) : Scan Bool := do
  let here ← cursor
  lineEndWithin complete (here.size + 1)

/-- Ends a statement here if it may end here. Comments passed on the way belong to the statement. -/
def takeLineEnd (complete : Bool) : Scan Bool := do
  if ← lineEnd complete then
    settle
    pure true
  else pure false

end Scan

end ImportRedirect.Script
