/-!
Sets of characters given by inclusive ranges of code points.
-/

namespace ImportRedirect.Text

abbrev Ranges := List (Nat × Nat)

/-- A character belongs to the set when some range holds its code point. -/
def Ranges.holds (ranges : Ranges) (c : Char) : Bool :=
  ranges.any fun range => range.1 ≤ c.toNat && c.toNat ≤ range.2

end ImportRedirect.Text
