import LiveSchema.Decimal.Shortest
import LiveSchema.Json.Document
import LiveSchema.Text.Digits

/-!
# LiveSchema.Json.Numeral

Number tokens. `Numeral.scan` takes a token off a text by the grammar alone; `Numeral.value` says
which number it denotes. A token without point and exponent is an integer if it fits 64 bits; any
other is a double, computed by scaling its leading digits (as many as fit 64 bits) by one power of
ten, and `-0` is the double that has a sign.
-/

namespace LiveSchema

/-- The parts of a number token. -/
structure Numeral where
  negative : Bool
  whole : List Char
  /-- The digits after the point, if there is one. -/
  fraction : Option (List Char)
  /-- The exponent, if there is one: whether it is negative, and its digits. -/
  exponent : Option (Bool × List Char)

namespace Numeral

/-- The break of a text that ends, or goes on wrongly, where a digit is due. -/
def digitDue : List Char → Break
  | [] => ⟨.endInValue, .invalidNumber, .expectedValue⟩
  | _ :: _ => (Break.plain .invalidNumber).unnamed

/-- One digit or more. -/
def someDigits (cs : List Char) : Except Break (List Char × List Char) :=
  match cs.takeWhile Char.isDigit with
  | [] => .error (digitDue cs)
  | digits => .ok (digits, cs.drop digits.length)

/-- The digits before the point. A zero is not followed by another digit. -/
def scanWhole (cs : List Char) : Except Break (List Char × List Char) :=
  match cs with
  | '0' :: c :: rest =>
    if c.isDigit then .error (Break.plain .invalidNumber).unnamed else .ok (['0'], c :: rest)
  | cs => someDigits cs

/-- The point and the digits after it, if a point follows. -/
def scanFraction : List Char → Except Break (Option (List Char) × List Char)
  | '.' :: rest => do
    let (digits, rest) ← someDigits rest
    return (some digits, rest)
  | cs => .ok (none, cs)

/-- The exponent, if one follows. -/
def scanExponent (cs : List Char) : Except Break (Option (Bool × List Char) × List Char) :=
  match cs with
  | c :: rest =>
    if c = 'e' ∨ c = 'E' then do
      let (negative, rest) := match rest with
        | '-' :: rest => (true, rest)
        | '+' :: rest => (false, rest)
        | rest => (false, rest)
      let (digits, rest) ← someDigits rest
      return (some (negative, digits), rest)
    else .ok (none, cs)
  | [] => .ok (none, [])

/-- A number token and what follows it. -/
def scan (cs : List Char) : Except Break (Numeral × List Char) := do
  let (negative, cs) := match cs with
    | '-' :: rest => (true, rest)
    | cs => (false, cs)
  let (whole, cs) ← scanWhole cs
  let (fraction, cs) ← scanFraction cs
  let (exponent, cs) ← scanExponent cs
  return (⟨negative, whole, fraction, exponent⟩, cs)

/-! ### The number that a token denotes -/

/-- The largest number of 64 bits. -/
def largest : Nat := 18446744073709551615

/-- The largest number whose opposite is an integer of 64 bits. -/
def largestNegated : Nat := 9223372036854775808

/-- Leading digits that fit 64 bits, and how many digits were taken and how many left out. -/
structure Leading where
  significand : Nat
  taken : Nat
  dropped : Nat

/-- Take the digits one by one; from the first one that does not fit, all are left out. -/
def leading (start : Nat) (digits : List Char) : Leading :=
  digits.foldl
    (fun l c =>
      let next := l.significand * 10 + (c.toNat - 48)
      if l.dropped = 0 ∧ next ≤ largest then ⟨next, l.taken + 1, 0⟩
      else { l with dropped := l.dropped + 1 })
    ⟨start, 0, 0⟩

/-- The double nearest to a power of ten. -/
def powerOfTen (n : Nat) : Float := Float.ofScientific 1 false n

/-- Divide by a power of ten, in steps of at most `10^308`. -/
def divideByPower (x : Float) (power : Nat) : Float :=
  if power ≤ 308 then x / powerOfTen power
  else if x == 0.0 then x
  else divideByPower (x / powerOfTen 308) (power - 308)
termination_by power

/-- A significand scaled by a power of ten, if a double can hold it. -/
def scale (significand : Nat) (power : Int) : Except Fault Float :=
  let x := Float.ofNat significand
  if power < 0 then .ok (divideByPower x power.natAbs)
  else if power ≤ 308 then
    let y := x * powerOfTen power.natAbs
    if y.isInf then .error .numberOutOfRange else .ok y
  else if significand = 0 then .ok x
  else .error .numberOutOfRange

/-- The largest exponent that is computed with; a larger one overflows or underflows outright. -/
def largestExponent : Nat := 2147483647

/-- The number that a token denotes. -/
def value (n : Numeral) : Except Fault Number :=
  let whole := leading 0 n.whole
  let signed (x : Float) : Number := .double (if n.negative then -x else x)
  match n.fraction, n.exponent with
  | none, none =>
    if whole.dropped = 0 then
      if n.negative then
        if 0 < whole.significand ∧ whole.significand ≤ largestNegated then
          .ok (.int (-(whole.significand : Int)))
        else (scale whole.significand 0).map signed
      else .ok (.int whole.significand)
    else (scale whole.significand whole.dropped).map signed
  | fraction, exponent =>
    let all := leading whole.significand (fraction.getD [])
    let start : Int := whole.dropped - all.taken
    match exponent with
    | none => (scale all.significand start).map signed
    | some (negative, digits) =>
      let e := Text.numberOf digits
      if e > largestExponent then
        if all.significand ≠ 0 ∧ !negative then .error .numberOutOfRange else .ok (signed 0.0)
      else (scale all.significand (if negative then start - e else start + e)).map signed

end Numeral

end LiveSchema
