/-!
# LiveSchema.Decimal.Shortest

The decimal of fewest digits that reads back to a given double. A finite double is `m · 2^q`; the
reals that round to it form an interval around it, which contains its ends exactly when `m` is
even. For each digit count from one to seventeen the two neighbours of the value on that decimal
grid are tested in exact integer arithmetic, and the first grid with a neighbour inside the
interval gives the digits.

* `Binary64` — sign, significand and exponent of a finite double, read off its bits.
* `Shortest` — digits and power of ten.
* `shortest` — the search over the grids.
-/

namespace LiveSchema.Decimal

/-- A finite double as `(-1)^negative · significand · 2^exponent`. -/
structure Binary64 where
  negative : Bool
  significand : Nat
  exponent : Int
  /-- The next smaller double is only half as far away as the next larger one. -/
  narrowBelow : Bool

/-- A power of two. -/
def pow2 (k : Nat) : Nat := Nat.pow 2 k

/-- A power of ten. -/
def pow10 (k : Nat) : Nat := Nat.pow 10 k

/-- Read off the parts of a double that is neither infinite nor a NaN. -/
def Binary64.ofFloat (x : Float) : Binary64 :=
  let bits : Nat := x.toBits.toNat
  let biased : Nat := bits / pow2 52 % pow2 11
  let fraction : Nat := bits % pow2 52
  if biased = 0 then ⟨bits / pow2 63 == 1, fraction, -1074, false⟩
  else
    ⟨bits / pow2 63 == 1, fraction + pow2 52, Int.ofNat biased - 1075, fraction == 0 && biased > 1⟩

/-- The number `digits · 10^power`. -/
structure Scaled where
  digits : Nat
  power : Int
deriving DecidableEq, Repr

/-- The value and the ends of its rounding interval on the grid of step `10^power`: all four
numbers are to be divided by `unit`. -/
structure Window where
  unit : Nat
  value : Nat
  low : Nat
  high : Nat
  closed : Bool

/-- The interval of the reals that round to a value, scaled to the grid of step `10^power`. -/
def Binary64.window (b : Binary64) (power : Int) : Window :=
  let up := pow2 b.exponent.toNat * pow10 (-power).toNat
  ⟨4 * pow2 (-b.exponent).toNat * pow10 power.toNat, 4 * b.significand * up,
    (4 * b.significand - if b.narrowBelow then 1 else 2) * up, (4 * b.significand + 2) * up,
    b.significand % 2 = 0⟩

/-- Whether a grid point lies in the interval. -/
def Window.holds (w : Window) (point : Nat) : Bool :=
  let at' := point * w.unit
  if w.closed then w.low ≤ at' && at' ≤ w.high else w.low < at' && at' < w.high

/-- The grid point inside the interval that is nearest to the value, if there is one. Of two
equally near points the even one is taken. -/
def Window.pick (w : Window) : Option Nat :=
  let below := w.value / w.unit
  let above := below + 1
  match w.holds below, w.holds above with
  | false, false => none
  | true, false => some below
  | false, true => some above
  | true, true =>
    let toBelow := w.value - below * w.unit
    let toAbove := above * w.unit - w.value
    if toBelow < toAbove || (toBelow = toAbove && below % 2 = 0) then some below else some above

/-- The power of ten of the first digit: `10^e ≤ value < 10^(e+1)`. -/
def Binary64.magnitude (b : Binary64) : Int :=
  let estimate : Int := (Int.fdiv (((Nat.log2 b.significand : Nat) + b.exponent) * 30103) 100000)
  let atLeast (e : Int) : Bool :=
    b.significand * pow2 b.exponent.toNat * pow10 (-e).toNat ≥
      pow10 e.toNat * pow2 (-b.exponent).toNat
  if atLeast (estimate + 1) then estimate + 1
  else if atLeast estimate then estimate
  else estimate - 1

/-- Drop the zeros at the end of the digits. -/
def Scaled.trim (s : Scaled) : Nat → Scaled
  | 0 => s
  | fuel + 1 =>
    if s.digits ≠ 0 ∧ s.digits % 10 = 0 then Scaled.trim ⟨s.digits / 10, s.power + 1⟩ fuel else s

/-- The first grid, from coarse to fine, that has a point in the interval. -/
def Binary64.search (b : Binary64) (magnitude : Int) (count : Nat) : Nat → Scaled
  | 0 => ⟨b.significand, 0⟩
  | fuel + 1 =>
    let power := magnitude - count
    match (b.window power).pick with
    | some digits => Scaled.trim ⟨digits, power⟩ 20
    | none => search b magnitude (count + 1) fuel

/-- The fewest digits that read back to a finite double, its sign apart. -/
def shortest (b : Binary64) : Scaled :=
  if b.significand = 0 then ⟨0, 0⟩ else b.search b.magnitude 0 18

/-- The decimal digits of a number, most significant first. -/
def digitChars (n : Nat) : List Char :=
  if n < 10 then [Char.ofNat (48 + n)] else digitChars (n / 10) ++ [Char.ofNat (48 + n % 10)]
termination_by n

end LiveSchema.Decimal
