import ImportRedirect.Value.Reader

/-!
Texts and keys of TOML: between single quotes characters stand for themselves, between double quotes
a backslash escapes, and three quotes let a text go over several lines. Every reader gives what it
read and the characters after it, or nothing when the text is not allowed.
-/

namespace ImportRedirect.Toml

def isSpace (c : Char) : Bool := c == ' ' || c == '\t'

def isSpaceOrNewline (c : Char) : Bool := isSpace c || c == '\n'

def skipSpace (cs : List Char) : List Char := cs.dropWhile isSpace

/-- Control characters other than the tab may not stand in a text or a comment; a newline may stand
in a text of several lines. -/
def isForbidden (multiline : Bool) (c : Char) : Bool :=
  (c.toNat < 32 || c.toNat == 127) && c != '\t' && !(multiline && c == '\n')

def literal? (cs : List Char) : Option (String × List Char) :=
  let text := cs.takeWhile (· != '\'')
  if text.any (isForbidden false) then none
  else
    match cs.drop text.length with
    | _ :: rest => some (String.ofList text, rest)
    | [] => none

/-- A text up to three single quotes; `done` holds its characters so far, last first. -/
def longLiteral? (done : List Char) : List Char → Option (String × List Char)
  | [] => none
  | '\'' :: '\'' :: '\'' :: rest => some (String.ofList done.reverse, rest)
  | c :: rest => if isForbidden true c then none else longLiteral? (c :: done) rest

def codePoint? (width : Nat) (cs : List Char) : Option (Char × List Char) :=
  let digits := (cs.take width).filterMap Value.Reader.hexValue?
  let point := digits.foldl (fun n d => n * 16 + d) 0
  if digits.length == width && point.isValidChar then some (Char.ofNat point, cs.drop width)
  else none

/-- What follows a backslash at the end of a line, where blanks and line ends are left out up to the
next character. -/
def nextLine? (cs : List Char) : Option (List Char) :=
  match skipSpace cs with
  | [] => some []
  | '\n' :: rest => some (rest.dropWhile isSpaceOrNewline)
  | _ => none

def escape? : List Char → Option (Char × List Char)
  | 'b' :: rest => some (Char.ofNat 8, rest)
  | 't' :: rest => some ('\t', rest)
  | 'n' :: rest => some ('\n', rest)
  | 'f' :: rest => some (Char.ofNat 12, rest)
  | 'r' :: rest => some ('\r', rest)
  | '"' :: rest => some ('"', rest)
  | '\\' :: rest => some ('\\', rest)
  | 'u' :: rest => codePoint? 4 rest
  | 'U' :: rest => codePoint? 8 rest
  | _ => none

/-- A text in double quotes, after the opening ones; `done` holds its characters so far, last
first. -/
def basic? (multiline : Bool) (done : List Char) : Nat → List Char → Option (String × List Char)
  | 0, _ => none
  | _, [] => none
  | fuel + 1, c :: rest =>
    if c == '"' then
      if !multiline then some (String.ofList done.reverse, rest)
      else
        match rest with
        | '"' :: '"' :: rest => some (String.ofList done.reverse, rest)
        | _ => basic? multiline (c :: done) fuel rest
    else if c == '\\' then
      match escape? rest with
      | some (character, rest) => basic? multiline (character :: done) fuel rest
      | none =>
        if multiline && rest.head?.any isSpaceOrNewline then
          match nextLine? rest with
          | some rest => basic? multiline done fuel rest
          | none => none
        else none
    else if isForbidden multiline c then none
    else basic? multiline (c :: done) fuel rest

/-- One or two quotes right after the closing three belong to the text. -/
def extraQuotes (quote : Char) (text : String) (rest : List Char) : String × List Char :=
  let extra := (rest.take 2).takeWhile (· == quote)
  (text ++ String.ofList extra, rest.drop extra.length)

/-- The characters of a long text: a newline right after the opening quotes is no part of it. -/
def openLong : List Char → List Char
  | '\n' :: rest => rest
  | cs => cs

def text? : List Char → Option (String × List Char)
  | '"' :: '"' :: '"' :: rest =>
    (basic? true [] (rest.length + 1) (openLong rest)).map fun (text, rest) =>
      extraQuotes '"' text rest
  | '"' :: rest => basic? false [] (rest.length + 1) rest
  | '\'' :: '\'' :: '\'' :: rest =>
    (longLiteral? [] (openLong rest)).map fun (text, rest) => extraQuotes '\'' text rest
  | '\'' :: rest => literal? rest
  | _ => none

def isKeyChar (c : Char) : Bool := c.isAlphanum || c == '-' || c == '_'

/-- One name of a key: plain, or a text on one line. -/
def keyPart? : List Char → Option (String × List Char)
  | '"' :: rest => basic? false [] (rest.length + 1) rest
  | '\'' :: rest => literal? rest
  | cs =>
    match cs.takeWhile isKeyChar with
    | [] => none
    | part => some (String.ofList part, cs.drop part.length)

abbrev Key : Type := List String

def keyFrom? : Nat → List Char → Option (Key × List Char)
  | 0, _ => none
  | fuel + 1, cs => do
    let (part, rest) ← keyPart? cs
    match skipSpace rest with
    | '.' :: rest =>
      let (key, rest) ← keyFrom? fuel (skipSpace rest)
      return (part :: key, rest)
    | rest => return ([part], rest)

/-- A key and what follows it; blanks after it are skipped. -/
def key? (cs : List Char) : Option (Key × List Char) := keyFrom? (cs.length + 1) cs

end ImportRedirect.Toml
