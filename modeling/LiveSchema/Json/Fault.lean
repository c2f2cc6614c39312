/-!
# LiveSchema.Json.Fault

What can be wrong with a JSON text: `Fault` names the reasons why a text is not JSON at some place,
`Fault.message` words them.
-/

namespace LiveSchema

/-- Why a text is not JSON at some place. -/
inductive Fault where
  /-- The text ends where a value is due. -/
  | endInValue
  /-- The text ends inside a list. -/
  | endInList
  /-- The text ends inside an object. -/
  | endInObject
  /-- The text ends inside a string. -/
  | endInString
  /-- No value can begin with this character. -/
  | expectedValue
  /-- A word that begins like `true`, `false` or `null` goes on differently. -/
  | expectedWord
  /-- No colon follows a key. -/
  | expectedColon
  /-- Neither comma nor bracket follows an item. -/
  | expectedListSeparator
  /-- Neither comma nor brace follows a field. -/
  | expectedObjectSeparator
  /-- The last item is followed by a comma. -/
  | trailingComma
  /-- Something follows the value. -/
  | trailingCharacters
  /-- A field does not begin with a string. -/
  | keyNotString
  /-- A number is not well formed. -/
  | invalidNumber
  /-- A number is too large for a double. -/
  | numberOutOfRange
  /-- A backslash is followed by no known escape. -/
  | invalidEscape
  /-- The first half of a surrogate pair is not followed by an escape. -/
  | unpairedEscape
  /-- A surrogate stands alone, or is followed by something other than its second half. -/
  | loneSurrogate
  /-- A control character stands inside a string. -/
  | controlCharacter
deriving DecidableEq, Repr

/-- The wording of a fault. -/
def Fault.message : Fault → String
  | .endInValue => "EOF while parsing a value"
  | .endInList => "EOF while parsing a list"
  | .endInObject => "EOF while parsing an object"
  | .endInString => "EOF while parsing a string"
  | .expectedValue => "expected value"
  | .expectedWord => "expected ident"
  | .expectedColon => "expected `:`"
  | .expectedListSeparator => "expected `,` or `]`"
  | .expectedObjectSeparator => "expected `,` or `\x7d`"
  | .trailingComma => "trailing comma"
  | .trailingCharacters => "trailing characters"
  | .keyNotString => "key must be a string"
  | .invalidNumber => "invalid number"
  | .numberOutOfRange => "number out of range"
  | .invalidEscape => "invalid escape"
  | .unpairedEscape => "unexpected end of hex escape"
  | .loneSurrogate => "lone leading surrogate in hex escape"
  | .controlCharacter => "control character (\\u0000-\\u001F) found while parsing a string"

end LiveSchema
