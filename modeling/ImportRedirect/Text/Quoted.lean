import ImportRedirect.Text.Printable

/-!
Quoted texts, as they are shown in messages: in single quotes, or in double quotes when the text has
single quotes and no double ones. What is not printable is shown by its code point.
-/

namespace ImportRedirect.Text.Quoted

def hex (width n : Nat) : List Char :=
  let digits := Nat.toDigits 16 n
  List.replicate (width - digits.length) '0' ++ digits

def mark (text : List Char) : Char :=
  if text.contains '\'' && !text.contains '"' then '"' else '\''

def escapeChar (quote c : Char) : List Char :=
  if c == quote || c == '\\' then ['\\', c]
  else if c == '\t' then ['\\', 't']
  else if c == '\n' then ['\\', 'n']
  else if c == '\r' then ['\\', 'r']
  else if Text.isPrintable c then [c]
  else if c.toNat < 256 then '\\' :: 'x' :: hex 2 c.toNat
  else if c.toNat < 65536 then '\\' :: 'u' :: hex 4 c.toNat
  else '\\' :: 'U' :: hex 8 c.toNat

def quoteChars (text : List Char) : List Char :=
  let quote := mark text
  quote :: text.flatMap (escapeChar quote) ++ [quote]

def quote (text : String) : String := String.ofList (quoteChars text.toList)

end ImportRedirect.Text.Quoted
