import LiveSchema.Decimal.Shortest

/-!
# LiveSchema.Decimal.Notation

How the digits of a double are laid out as a JSON number: positional while the decimal point falls
within sixteen digits of the first one or at most five zeros precede it, with `.0` on whole numbers,
and in scientific form, its exponent always signed, outside that range.
-/

namespace LiveSchema.Decimal

/-- The digits of a double with the point in its place. The sign is not written. -/
def layout (s : Scaled) : List Char :=
  let digits := digitChars s.digits
  let point : Int := digits.length + s.power
  if s.digits = 0 then ['0', '.', '0']
  else if 0 ≤ s.power ∧ point ≤ 16 then
    digits ++ List.replicate s.power.toNat '0' ++ ['.', '0']
  else if 0 < point ∧ point ≤ 16 then
    digits.take point.toNat ++ ['.'] ++ digits.drop point.toNat
  else if -5 < point ∧ point ≤ 0 then
    ['0', '.'] ++ List.replicate (-point).toNat '0' ++ digits
  else
    let mantissa := match digits with
      | [] => []
      | [d] => [d]
      | d :: rest => d :: '.' :: rest
    let exponent := point - 1
    mantissa ++ ['e', if exponent < 0 then '-' else '+'] ++ digitChars exponent.natAbs

/-- A finite double in the fewest digits. -/
def ofFloat (x : Float) : String :=
  let b := Binary64.ofFloat x
  String.ofList ((if b.negative then ['-'] else []) ++ layout (shortest b))

end LiveSchema.Decimal
