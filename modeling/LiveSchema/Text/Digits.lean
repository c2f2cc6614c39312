/-!
# LiveSchema.Text.Digits

Numbers that are written in decimal digits.
-/

namespace LiveSchema.Text

/-- The number that a run of decimal digits denotes. -/
def numberOf (digits : List Char) : Nat :=
  digits.foldl (fun n c => n * 10 + (c.toNat - 48)) 0

/-- The number that characters denote, if there are some and all of them are digits. -/
def number? (cs : List Char) : Option Nat :=
  if cs.isEmpty || !cs.all Char.isDigit then none else some (numberOf cs)

/-- A natural number of 64 bits; a plus sign may stand before it. -/
def natural? (s : String) : Option Nat :=
  let digits := match s.toList with
    | '+' :: rest => rest
    | cs => cs
  (number? digits).filter (· ≤ 18446744073709551615)

end LiveSchema.Text
