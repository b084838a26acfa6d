import ImportRedirect.Text.Quoted
import ImportRedirect.Value

/-!
Values as they are shown in messages: texts in quotes, lists in brackets, objects in braces.
-/

namespace ImportRedirect

/-- The digits of a positive number without the zeros at its end, and how many zeros those were. -/
def Decimal.significant : Nat → Nat → List Char × Nat
  | 0, n => (Nat.toDigits 10 n, 0)
  | fuel + 1, n =>
    if n % 10 == 0 && n != 0 then
      let (digits, zeros) := Decimal.significant fuel (n / 10)
      (digits, zeros + 1)
    else (Nat.toDigits 10 n, 0)

/-- The fewest digits that give the number: positional while the leading digit stands for at least
`10 ^ -4` and less than `10 ^ 16`, with an exponent of two digits or more otherwise. -/
def Decimal.display : Decimal → String
  | .undefined => "nan"
  | .infinite negative => if negative then "-inf" else "inf"
  | .finite coefficient exponent =>
    let size := coefficient.natAbs
    let sign := if coefficient < 0 then ['-'] else []
    if size == 0 then "0.0"
    else
      let (digits, zeros) := Decimal.significant (Nat.toDigits 10 size).length size
      let point : Int := digits.length + (exponent + zeros)
      let body :=
        if -4 < point && point ≤ 16 then
          if point ≤ 0 then '0' :: '.' :: List.replicate (-point).toNat '0' ++ digits
          else if point < digits.length then
            digits.take point.toNat ++ '.' :: digits.drop point.toNat
          else digits ++ List.replicate (point - digits.length).toNat '0' ++ ['.', '0']
        else
          let power := point - 1
          let powerDigits := Nat.toDigits 10 power.natAbs
          let mantissa :=
            match digits with
            | d :: rest@(_ :: _) => d :: '.' :: rest
            | other => other
          mantissa ++ 'e' :: (if power < 0 then '-' else '+') ::
            (List.replicate (2 - powerDigits.length) '0' ++ powerDigits)
      String.ofList (sign ++ body)

namespace Value

mutual

def quoted : Value → String
  | .null => "None"
  | .bool b => if b then "True" else "False"
  | .int i => toString i
  | .real r => r.display
  | .moment text => text
  | .str s => Text.Quoted.quote s
  | .arr items => "[" ++ ", ".intercalate (quotedList items) ++ "]"
  | .obj fields => "\x7b" ++ ", ".intercalate (quotedFields fields) ++ "\x7d"

def quotedList : List Value → List String
  | [] => []
  | v :: rest => v.quoted :: quotedList rest

def quotedFields : List (String × Value) → List String
  | [] => []
  | (k, v) :: rest => (Text.Quoted.quote k ++ ": " ++ v.quoted) :: quotedFields rest

end

/-- A value as running text: a text stands for itself. -/
def display : Value → String
  | .str s => s
  | v => v.quoted

end Value

end ImportRedirect
