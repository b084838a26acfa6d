import ImportRedirect.Text.Ranges

/-!
Where the smallest parts of a script end: blanks and comments, names, numbers, quoted texts and
regular expressions. Every function looks at the characters ahead and says how many belong to the
part, so that reading on is always a matter of passing that many.
-/

namespace ImportRedirect.Script

def spaceRanges : Text.Ranges :=
  [(9, 13), (32, 32), (133, 133), (160, 160), (5760, 5760), (8192, 8203), (8232, 8233), (8239, 8239),
   (8287, 8288), (12288, 12288), (65279, 65279)]

def isSpace (c : Char) : Bool := spaceRanges.holds c

def isLineEnd (c : Char) : Bool :=
  c == '\n' || c == '\r' || c == '\u2028' || c == '\u2029'

inductive Trivia where
  | blank
  | lineComment
  | blockComment (since : Nat)

/-- How many characters are blanks and comments, when `passed` of them were passed before. A block
comment that is never closed is none. -/
def Trivia.lengthFrom : Trivia → Nat → List Char → Nat
  | .blank, passed, [] => passed
  | .blank, passed, '/' :: '/' :: rest => lengthFrom .lineComment (passed + 2) rest
  | .blank, passed, '/' :: '*' :: rest => lengthFrom (.blockComment passed) (passed + 2) rest
  | .blank, passed, c :: rest => if isSpace c then lengthFrom .blank (passed + 1) rest else passed
  | .lineComment, passed, [] => passed
  | .lineComment, passed, c :: rest =>
    lengthFrom (if isLineEnd c then .blank else .lineComment) (passed + 1) rest
  | .blockComment since, _, [] => since
  | .blockComment _, passed, '*' :: '/' :: rest => lengthFrom .blank (passed + 2) rest
  | .blockComment since, passed, _ :: rest => lengthFrom (.blockComment since) (passed + 1) rest

def triviaLength (ahead : List Char) : Nat := Trivia.lengthFrom .blank 0 ahead

def blockCommentTail? (passed : Nat) : List Char → Option Nat
  | [] => none
  | '*' :: '/' :: _ => some (passed + 2)
  | _ :: rest => blockCommentTail? (passed + 1) rest

/-- The length of blanks and the one comment after them, when there is a comment. -/
def commentLength? (ahead : List Char) : Option Nat :=
  let blanks := (ahead.takeWhile isSpace).length
  match ahead.drop blanks with
  | '/' :: '/' :: rest => some (blanks + 2 + (rest.takeWhile (!isLineEnd ·)).length)
  | '/' :: '*' :: rest => blockCommentTail? (blanks + 2) rest
  | _ => none

def isHexDigit (c : Char) : Bool :=
  c.isDigit || ('a' ≤ c && c ≤ 'f') || ('A' ≤ c && c ≤ 'F')

def bracedCodeLength? : List Char → Option Nat
  | ahead =>
    let digits := (ahead.takeWhile isHexDigit).length
    if digits == 0 then none
    else if (ahead.drop digits).head? == some '}' then some (digits + 1) else none

def codePointLength? : List Char → Option Nat
  | '\x7b' :: rest => (bracedCodeLength? rest).map (· + 1)
  | ahead =>
    let digits := ahead.take 4
    if digits.length == 4 && digits.all isHexDigit then some 4 else none

def nameBreaks : List Char := ":;`\"'@#.,|^&<=>+-*/\\%?!~()[]\x7b\x7d".toList

def isNamePart (c : Char) : Bool :=
  32 ≤ c.toNat && !isSpace c && !nameBreaks.contains c

def namePartLength? : List Char → Option Nat
  | '\\' :: 'u' :: rest => (codePointLength? rest).map (· + 2)
  | c :: _ => if isNamePart c then some 1 else none
  | [] => none

/-- The length of a name's characters, of which the first `skip` are known to belong to it. -/
def namePartsLength (skip : Nat) : List Char → Nat
  | [] => 0
  | c :: rest =>
    match skip with
    | skip + 1 => namePartsLength skip rest + 1
    | 0 =>
      match namePartLength? (c :: rest) with
      | some length => namePartsLength (length - 1) rest + 1
      | none => 0

/-- The length of the name ahead; zero when there is none. -/
def nameLength (ahead : List Char) : Nat :=
  if ahead.head?.any Char.isDigit then 0 else namePartsLength 0 ahead

/-- The length of a run of digits in which single underscores may stand between two digits. -/
def digitsLength (isDigit : Char → Bool) : List Char → Nat
  | '_' :: d :: rest => if isDigit d then digitsLength isDigit rest + 2 else 0
  | d :: rest => if isDigit d then digitsLength isDigit rest + 1 else 0
  | [] => 0

/-- Like `digitsLength`, and zero when an underscore comes first. -/
def digitRunLength (isDigit : Char → Bool) (ahead : List Char) : Nat :=
  if ahead.head?.any isDigit then digitsLength isDigit ahead else 0

def exponentLength (ahead : List Char) : Nat :=
  let decimals := fun rest => digitRunLength Char.isDigit rest
  match ahead with
  | 'e' :: '+' :: rest | 'e' :: '-' :: rest | 'E' :: '+' :: rest | 'E' :: '-' :: rest =>
    if decimals rest == 0 then 0 else decimals rest + 2
  | 'e' :: rest | 'E' :: rest => if decimals rest == 0 then 0 else decimals rest + 1
  | _ => 0

/-- The length of a number in another base, after its two characters of introduction. -/
def basedLength (isDigit : Char → Bool) (rest : List Char) : Nat :=
  let digits := digitRunLength isDigit rest
  if digits == 0 then 1
  else digits + 2 + (if (rest.drop digits).head? == some 'n' then 1 else 0)

def numberLength (ahead : List Char) : Nat :=
  match ahead with
  | '0' :: 'x' :: rest | '0' :: 'X' :: rest => basedLength isHexDigit rest
  | '0' :: 'b' :: rest | '0' :: 'B' :: rest => basedLength (fun c => c == '0' || c == '1') rest
  | '0' :: 'o' :: rest | '0' :: 'O' :: rest => basedLength (fun c => '0' ≤ c && c ≤ '7') rest
  | _ =>
    let whole := digitRunLength Char.isDigit ahead
    match ahead.drop whole with
    | '.' :: rest =>
      let fraction := digitRunLength Char.isDigit rest
      whole + 1 + fraction + exponentLength (rest.drop fraction)
    | 'n' :: _ => whole + 1
    | rest => whole + exponentLength rest

def escapeLength? : List Char → Option Nat
  | [] => none
  | 'x' :: a :: b :: _ => if isHexDigit a && isHexDigit b then some 3 else none
  | 'u' :: rest => (codePointLength? rest).map (· + 1)
  | '\r' :: '\n' :: _ => some 2
  | c :: rest =>
    if c == 'x' then none
    else if '0' ≤ c && c ≤ '7' then
      some (1 + ((rest.take 2).takeWhile fun d => '0' ≤ d && d ≤ '7').length)
    else some 1

/-- The length of a quoted text after its opening mark, the closing one included, when `passed`
characters were passed before and the next `skip` belong to an escape. -/
def quotedLength? (quote : Char) (passed skip : Nat) : List Char → Option Nat
  | [] => none
  | c :: rest =>
    match skip with
    | skip + 1 => quotedLength? quote (passed + 1) skip rest
    | 0 =>
      if c == quote then some (passed + 1)
      else if c == '\n' || c == '\r' then none
      else if c == '\\' then
        match escapeLength? rest with
        | some length => quotedLength? quote (passed + 1) length rest
        | none => none
      else quotedLength? quote (passed + 1) 0 rest

/-- The length of a template's text up to and with its closing mark (`true`) or the opening of a
substitution (`false`), counted like `quotedLength?`. -/
def templateLength? (passed skip : Nat) : List Char → Option (Nat × Bool)
  | [] => none
  | c :: rest =>
    match skip with
    | skip + 1 => templateLength? (passed + 1) skip rest
    | 0 =>
      if c == '\x60' then some (passed + 1, true)
      else if c == '$' && rest.head? == some '\x7b' then some (passed + 2, false)
      else if c == '\\' then
        match escapeLength? rest with
        | some length => templateLength? (passed + 1) length rest
        | none => none
      else templateLength? (passed + 1) 0 rest

/-- The length of a regular expression's pattern after its opening slash, the closing one included.
-/
def patternLength? (inClass : Bool) (passed : Nat) : List Char → Option Nat
  | [] => none
  | '\\' :: c :: rest => if c == '\n' then none else patternLength? inClass (passed + 2) rest
  | c :: rest =>
    if c == '\n' || c == '\\' then none
    else if inClass then patternLength? (c != ']') (passed + 1) rest
    else if c == '/' then some (passed + 1)
    else patternLength? (c == '[') (passed + 1) rest

def regexLength? (ahead : List Char) : Option Nat :=
  (patternLength? false 0 ahead).map fun length =>
    length + ((ahead.drop length).takeWhile Char.isLower).length

/-- Marks of more than one character, a longer one before those it begins with. -/
def longMarks : List (List Char) :=
  [">>>=", "...", "===", "!==", ">>>", "<<=", ">>=", "**=", "&&=", "||=", "??=",
   "=>", "==", "!=", "<=", ">=", "<<", ">>", "**", "&&", "||", "??", "?.", "++", "--",
   "+=", "-=", "*=", "/=", "%=", "&=", "|=", "^="].map String.toList

/-- The next token, as far as its first characters tell. -/
inductive Lexeme where
  | finish
  | word (text : String)
  | privateName (length : Nat)
  | number
  | quote (mark : Char)
  | mark (text : String)
  deriving DecidableEq, Repr

def Lexeme.first (ahead : List Char) : Lexeme :=
  match ahead with
  | [] => .finish
  | c :: rest =>
    let name := nameLength ahead
    if name != 0 then .word (String.ofList (ahead.take name))
    else if c.isDigit || (c == '.' && rest.head?.any Char.isDigit) then .number
    else if c == '\'' || c == '"' then .quote c
    else if c == '#' && nameLength rest != 0 then .privateName (nameLength rest + 1)
    else
      match longMarks.find? (·.isPrefixOf ahead) with
      | some ['?', '.'] =>
        if (rest.drop 1).head?.any Char.isDigit then .mark "?" else .mark "?."
      | some found => .mark (String.ofList found)
      | none => .mark (String.singleton c)

end ImportRedirect.Script
