/-!
# LiveSchema.Text.Blank

White space in the sense of the Unicode property `White_Space`, and trimming by it. Values of
environment variables and the numbers of a calendar date may be surrounded by such blanks.
-/

namespace LiveSchema.Text

/-- The 25 code points with the property `White_Space`. -/
def isBlank (c : Char) : Bool :=
  let code := c.toNat
  (9 ≤ code && code ≤ 13) || code == 32 || code == 0x85 || code == 0xA0 || code == 0x1680 ||
  (0x2000 ≤ code && code ≤ 0x200A) || code == 0x2028 || code == 0x2029 || code == 0x202F ||
  code == 0x205F || code == 0x3000

/-- The text without blanks at its ends. -/
def trimBlank (s : String) : String :=
  let inner := s.toList.dropWhile isBlank
  String.ofList (inner.reverse.dropWhile isBlank).reverse

end LiveSchema.Text
