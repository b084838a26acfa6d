/-!
Percentages with one place after the point. The share is rounded to binary floating point, then a
hundred times the share, and last the decimal text; ties always go to the even neighbour.
-/

namespace ImportRedirect.Text.Percent

/-- A quotient rounded to the nearest whole number, ties to the even one. -/
def roundDiv (num den : Nat) : Nat :=
  let whole := num / den
  let twice := 2 * (num % den)
  if twice < den then whole
  else if den < twice then whole + 1
  else whole + whole % 2

/-- The number `mantissa / 2 ^ scale`. -/
structure Binary where
  mantissa : Nat
  scale : Nat
  deriving DecidableEq, Repr

/-- A positive quotient, not much larger than one, rounded to 53 binary digits. -/
def Binary.ofQuotient (num den : Nat) : Binary :=
  let scale := 53 + den.log2 - num.log2
  let scale := if num * Nat.pow 2 scale / den < Nat.pow 2 53 then scale else scale - 1
  ⟨roundDiv (num * Nat.pow 2 scale) den, scale⟩

def tenths (part whole : Nat) : Nat :=
  if part == 0 || whole == 0 then 0
  else
    let share := Binary.ofQuotient part whole
    let percent := Binary.ofQuotient (share.mantissa * 100) (Nat.pow 2 share.scale)
    roundDiv (percent.mantissa * 10) (Nat.pow 2 percent.scale)

/-- The percentage that a part has in a whole; of nothing it is zero. -/
def text (part whole : Nat) : String :=
  let n := tenths part whole
  s!"{n / 10}.{n % 10}"

end ImportRedirect.Text.Percent
