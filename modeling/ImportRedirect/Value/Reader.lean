import ImportRedirect.Value

/-!
Reading values from JSON text. Of fields with one name the last counts, in the place of the first;
the three numbers without digits are accepted by their names; control characters within texts are
not.
-/

namespace ImportRedirect.Value.Reader

def isSpace (c : Char) : Bool := c == ' ' || c == '\t' || c == '\n' || c == '\r'

def skipSpace (cs : List Char) : List Char := cs.dropWhile isSpace

def hexValue? (c : Char) : Option Nat :=
  if '0' ≤ c ∧ c ≤ '9' then some (c.toNat - '0'.toNat)
  else if 'a' ≤ c ∧ c ≤ 'f' then some (c.toNat - 'a'.toNat + 10)
  else if 'A' ≤ c ∧ c ≤ 'F' then some (c.toNat - 'A'.toNat + 10)
  else none

def unit? : List Char → Option (Nat × List Char)
  | a :: b :: c :: d :: rest => do
    let a ← hexValue? a
    let b ← hexValue? b
    let c ← hexValue? c
    let d ← hexValue? d
    return (((a * 16 + b) * 16 + c) * 16 + d, rest)
  | _ => none

def isHigh (unit : Nat) : Bool := 0xD800 ≤ unit && unit < 0xDC00

def isLow (unit : Nat) : Bool := 0xDC00 ≤ unit && unit < 0xE000

def escapedChar (unit : Nat) (rest : List Char) : Char × List Char :=
  if isHigh unit then
    match rest with
    | '\\' :: 'u' :: more =>
      match unit? more with
      | some (second, rest') =>
        if isLow second then
          (Char.ofNat (0x10000 + (unit - 0xD800) * 1024 + (second - 0xDC00)), rest')
        else (Char.ofNat 0xFFFD, rest)
      | none => (Char.ofNat 0xFFFD, rest)
    | _ => (Char.ofNat 0xFFFD, rest)
  else if isLow unit then (Char.ofNat 0xFFFD, rest)
  else (Char.ofNat unit, rest)

/-- The text up to its closing mark; `done` holds its characters so far, last first. -/
def text? (done : List Char) : Nat → List Char → Option (String × List Char)
  | 0, _ => none
  | _, [] => none
  | fuel + 1, c :: rest =>
    if c == '"' then some (String.ofList done.reverse, rest)
    else if c == '\\' then
      match rest with
      | '"' :: rest => text? ('"' :: done) fuel rest
      | '\\' :: rest => text? ('\\' :: done) fuel rest
      | '/' :: rest => text? ('/' :: done) fuel rest
      | 'b' :: rest => text? (Char.ofNat 8 :: done) fuel rest
      | 'f' :: rest => text? (Char.ofNat 12 :: done) fuel rest
      | 'n' :: rest => text? ('\n' :: done) fuel rest
      | 'r' :: rest => text? ('\r' :: done) fuel rest
      | 't' :: rest => text? ('\t' :: done) fuel rest
      | 'u' :: rest =>
        match unit? rest with
        | some (unit, rest) =>
          let (character, rest) := escapedChar unit rest
          text? (character :: done) fuel rest
        | none => none
      | _ => none
    else if c.toNat < 32 then none
    else text? (c :: done) fuel rest

def digitsValue (digits : List Char) : Nat :=
  digits.foldl (fun n d => n * 10 + (d.toNat - '0'.toNat)) 0

/-- A number without its sign: digits, and a fraction and an exponent that may be missing. -/
def magnitude? (negative : Bool) (cs : List Char) : Option (Value × List Char) :=
  let whole := cs.takeWhile Char.isDigit
  let whole := if whole.head? == some '0' then whole.take 1 else whole
  if whole.isEmpty then none
  else
    let rest := cs.drop whole.length
    let fraction :=
      match rest with
      | '.' :: more => more.takeWhile Char.isDigit
      | _ => []
    let rest := if fraction.isEmpty then rest else rest.drop (fraction.length + 1)
    let (exponent, rest) : Option Int × List Char :=
      match rest with
      | e :: more =>
        if e == 'e' || e == 'E' then
          let (minus, digitsFrom) :=
            match more with
            | '-' :: after => (true, after)
            | '+' :: after => (false, after)
            | after => (false, after)
          let digits := digitsFrom.takeWhile Char.isDigit
          if digits.isEmpty then (none, rest)
          else
            let power : Int := digitsValue digits
            (some (if minus then -power else power), digitsFrom.drop digits.length)
        else (none, rest)
      | [] => (none, rest)
    let size : Int := digitsValue (whole ++ fraction)
    let coefficient := if negative then -size else size
    if fraction.isEmpty && exponent.isNone then some (.int coefficient, rest)
    else some (.real (.finite coefficient (exponent.getD 0 - fraction.length)), rest)

def scalar? (cs : List Char) : Option (Value × List Char) :=
  if "null".toList.isPrefixOf cs then some (.null, cs.drop 4)
  else if "true".toList.isPrefixOf cs then some (.bool true, cs.drop 4)
  else if "false".toList.isPrefixOf cs then some (.bool false, cs.drop 5)
  else if "NaN".toList.isPrefixOf cs then some (.real .undefined, cs.drop 3)
  else if "Infinity".toList.isPrefixOf cs then some (.real (.infinite false), cs.drop 8)
  else if "-Infinity".toList.isPrefixOf cs then some (.real (.infinite true), cs.drop 9)
  else
    match cs with
    | '-' :: rest => magnitude? true rest
    | _ => magnitude? false cs

mutual

def value? : Nat → List Char → Option (Value × List Char)
  | 0, _ => none
  | fuel + 1, cs =>
    match skipSpace cs with
    | '"' :: rest =>
      match text? [] (rest.length + 1) rest with
      | some (s, rest) => some (.str s, rest)
      | none => none
    | '[' :: rest =>
      match skipSpace rest with
      | ']' :: rest => some (.arr [], rest)
      | rest => items? [] fuel rest
    | '\x7b' :: rest =>
      match skipSpace rest with
      | '\x7d' :: rest => some (.obj [], rest)
      | rest => fields? [] fuel rest
    | rest => scalar? rest

def items? (done : List Value) : Nat → List Char → Option (Value × List Char)
  | 0, _ => none
  | fuel + 1, cs =>
    match value? fuel cs with
    | none => none
    | some (v, rest) =>
      match skipSpace rest with
      | ',' :: rest => items? (v :: done) fuel rest
      | ']' :: rest => some (.arr (v :: done).reverse, rest)
      | _ => none

def fields? (done : List (String × Value)) : Nat → List Char → Option (Value × List Char)
  | 0, _ => none
  | fuel + 1, cs =>
    match skipSpace cs with
    | '"' :: rest =>
      match text? [] (rest.length + 1) rest with
      | none => none
      | some (key, rest) =>
        match skipSpace rest with
        | ':' :: rest =>
          match value? fuel rest with
          | none => none
          | some (v, rest) =>
            match skipSpace rest with
            | ',' :: rest => fields? (insert key v done) fuel rest
            | '\x7d' :: rest => some (.obj (insert key v done), rest)
            | _ => none
        | _ => none
    | _ => none

end

end Reader

/-- The value a text holds; nothing but space may stand around it. -/
def parse? (source : String) : Option Value :=
  let cs := source.toList
  match Reader.value? (2 * cs.length + 2) cs with
  | some (v, rest) => if (Reader.skipSpace rest).isEmpty then some v else none
  | none => none

end ImportRedirect.Value
