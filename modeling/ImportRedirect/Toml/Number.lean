import ImportRedirect.Toml.Text

/-!
Numbers, dates and times of TOML. Digits may be parted by single underscores; whole numbers may be
written to three other bases; dates must exist.
-/

namespace ImportRedirect.Toml

def moreDigits (isDigit : Char → Bool) : List Char → List Char × List Char
  | '_' :: c :: rest =>
    if isDigit c then
      let (digits, rest) := moreDigits isDigit rest
      (c :: digits, rest)
    else ([], '_' :: c :: rest)
  | c :: rest =>
    if isDigit c then
      let (digits, rest) := moreDigits isDigit rest
      (c :: digits, rest)
    else ([], c :: rest)
  | [] => ([], [])

def digits? (isDigit : Char → Bool) : List Char → Option (List Char × List Char)
  | c :: rest =>
    if isDigit c then
      let (digits, rest) := moreDigits isDigit rest
      some (c :: digits, rest)
    else none
  | [] => none

def isDigitOf (base : Nat) (c : Char) : Bool := (Value.Reader.hexValue? c).any (· < base)

def numberOf (base : Nat) (digits : List Char) : Nat :=
  (digits.filterMap Value.Reader.hexValue?).foldl (fun n d => n * base + d) 0

def prefixed? : List Char → Option (Value × List Char)
  | '0' :: letter :: rest => do
    let base ← match letter with
      | 'x' => some 16
      | 'o' => some 8
      | 'b' => some 2
      | _ => none
    let (digits, rest) ← digits? (isDigitOf base) rest
    return (.int (numberOf base digits), rest)
  | _ => none

def sign : List Char → Bool × List Char
  | '-' :: rest => (true, rest)
  | '+' :: rest => (false, rest)
  | cs => (false, cs)

def signed (negative : Bool) (size : Nat) : Int := if negative then -(size : Int) else size

def fraction : List Char → List Char × List Char
  | '.' :: rest => (digits? Char.isDigit rest).getD ([], '.' :: rest)
  | cs => ([], cs)

def exponent? : List Char → Option (Int × List Char)
  | c :: rest => do
    if c != 'e' && c != 'E' then none
    else
      let (negative, rest) := sign rest
      let (digits, rest) ← digits? Char.isDigit rest
      return (signed negative (numberOf 10 digits), rest)
  | [] => none

/-- The digits before the point: a zero stands alone. -/
def wholePart? : List Char → Option (List Char × List Char)
  | '0' :: rest => some (['0'], rest)
  | cs => digits? Char.isDigit cs

/-- A number to base ten. With a fraction or an exponent it is no whole number. -/
def decimal? (cs : List Char) : Option (Value × List Char) := do
  let (negative, rest) := sign cs
  let (whole, rest) ← wholePart? rest
  let (fraction, rest) := fraction rest
  let size := signed negative (numberOf 10 (whole ++ fraction))
  match exponent? rest with
  | some (power, rest) => return (.real (.finite size (power - fraction.length)), rest)
  | none =>
    if fraction.isEmpty then return (.int size, rest)
    else return (.real (.finite size (-(fraction.length : Int))), rest)

def named? (cs : List Char) : Option (Value × List Char) :=
  let (negative, rest) := sign cs
  match rest with
  | 'i' :: 'n' :: 'f' :: rest => some (.real (.infinite negative), rest)
  | 'n' :: 'a' :: 'n' :: rest => some (.real .undefined, rest)
  | _ => none

def fixed? (width : Nat) (cs : List Char) : Option (Nat × List Char) :=
  let digits := cs.take width
  if digits.length == width && digits.all Char.isDigit then
    some (numberOf 10 digits, cs.drop width)
  else none

def after? (expected : Char) : List Char → Option (List Char)
  | c :: rest => if c == expected then some rest else none
  | [] => none

def isLeapYear (year : Nat) : Bool := year % 4 == 0 && (year % 100 != 0 || year % 400 == 0)

def daysIn (year month : Nat) : Nat :=
  if month == 2 then if isLeapYear year then 29 else 28
  else if month == 4 || month == 6 || month == 9 || month == 11 then 30
  else 31

def date? (cs : List Char) : Option (List Char) := do
  let (year, rest) ← fixed? 4 cs
  let (month, rest) ← fixed? 2 (← after? '-' rest)
  let (day, rest) ← fixed? 2 (← after? '-' rest)
  guard (1 ≤ year && 1 ≤ month && month ≤ 12 && 1 ≤ day && day ≤ daysIn year month)
  return rest

def hourMinute? (cs : List Char) : Option (List Char) := do
  let (hour, rest) ← fixed? 2 cs
  let (minute, rest) ← fixed? 2 (← after? ':' rest)
  guard (hour < 24 && minute < 60)
  return rest

def time? (cs : List Char) : Option (List Char) := do
  let rest ← hourMinute? cs
  let (second, rest) ← fixed? 2 (← after? ':' rest)
  guard (second < 60)
  match rest with
  | '.' :: part =>
    if part.head?.any Char.isDigit then return part.dropWhile Char.isDigit else return rest
  | _ => return rest

def offset (cs : List Char) : List Char :=
  match cs with
  | 'Z' :: rest | 'z' :: rest => rest
  | '+' :: rest | '-' :: rest => (hourMinute? rest).getD cs
  | _ => cs

def dateTime? (cs : List Char) : Option (List Char) := do
  let rest ← date? cs
  match rest with
  | 'T' :: more | 't' :: more | ' ' :: more =>
    match time? more with
    | some rest => return offset rest
    | none => return rest
  | _ => return rest

def moment? (cs : List Char) : Option (Value × List Char) := do
  let rest ← dateTime? cs <|> time? cs
  return (.moment (String.ofList (cs.take (cs.length - rest.length))), rest)

def number? (cs : List Char) : Option (Value × List Char) :=
  moment? cs <|> prefixed? cs <|> decimal? cs <|> named? cs

end ImportRedirect.Toml
