/-!
# LiveSchema.Text.Ranges

Sets of characters as ranges of code points, in increasing order and without overlap.
-/

namespace LiveSchema.Text

/-- Whether a code point lies in one of the ranges numbered `low` to `high - 1`, by halving. -/
def isBetween (ranges : Array (Nat × Nat)) (code : Nat) (low high : Nat) : Bool :=
  if _h : low < high then
    let mid := (low + high) / 2
    match ranges[mid]? with
    | none => false
    | some (first, last) =>
      if code < first then isBetween ranges code low mid
      else if last < code then isBetween ranges code (mid + 1) high
      else true
  else false
termination_by high - low

/-- Whether a code point lies in one of some ranges. -/
def isInRanges (ranges : Array (Nat × Nat)) (code : Nat) : Bool :=
  isBetween ranges code 0 ranges.size

end LiveSchema.Text
