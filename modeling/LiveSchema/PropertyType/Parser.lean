import LiveSchema.Identifier
import LiveSchema.PropertyType.Basic
import LiveSchema.Text.Quoted

/-!
# LiveSchema.PropertyType.Parser

Reading the declared type of a property. The grammar is

    Type ::= Base ('[]')*
    Base ::= String | Integer | Long | Double | Boolean | Date | Json
           | 'Enum' '(' Name (',' Name)* ')'
           | 'Ref' '(' Name ')'

with blanks, tabs and line ends allowed before and after the type, before each `[]`, between `Enum`
or `Ref` and its parenthesis, and around each name. Inside the parentheses no name contains a comma
or a parenthesis, so the content reaches to the first closing parenthesis and is cut at the commas.

* `PropertyType.parse` — the type that a text denotes, or why it denotes none.
* `TypeFailure` — the three ways to fail, each with the text that is left where it shows.
-/

namespace LiveSchema

/-- Why a text denotes no type, and what is left of it there. -/
inductive TypeFailure where
  /-- No name begins here. -/
  | noName (rest : List Char)
  /-- What begins here is no type. -/
  | noType (rest : List Char)
  /-- Something follows the type. -/
  | leftOver (rest : List Char)
deriving DecidableEq

/-- The wording of a failure to read the type `source`. -/
def TypeFailure.message (source : String) (failure : TypeFailure) : String :=
  let (rest, code) := match failure with
    | .noName rest => (rest, "Tag")
    | .noType rest => (rest, "MapRes")
    | .leftOver rest => (rest, "Eof")
  "invalid property type '" ++ source ++ "': Parsing Error: Error \x7b input: " ++
    Text.quoted (String.ofList rest) ++ ", code: " ++ code ++ " \x7d"

namespace PropertyType

/-- The blanks of the grammar. -/
def isSpace (c : Char) : Bool := c = ' ' || c = '\t' || c = '\r' || c = '\n'

/-- Skip blanks. -/
def skipSpace (cs : List Char) : List Char := cs.dropWhile isSpace

/-- The text without blanks at its ends. -/
def trimSpace (cs : List Char) : List Char :=
  (skipSpace (skipSpace cs).reverse).reverse

/-- Cut at every comma. -/
def cutAtCommas : List Char → List (List Char)
  | [] => [[]]
  | c :: rest =>
    if c = ',' then [] :: cutAtCommas rest
    else
      match cutAtCommas rest with
      | [] => [[c]]
      | piece :: pieces => (c :: piece) :: pieces

/-- The one name in a piece of text. -/
def nameIn? (piece : List Char) : Option String :=
  let name := trimSpace piece
  if isIdentifierChars name then some (String.ofList name) else none

/-- What stands between an opening parenthesis, which blanks may precede, and the first closing one;
and what follows it. -/
def inParentheses? (cs : List Char) : Option (List Char × List Char) :=
  match skipSpace cs with
  | '(' :: rest =>
    match rest.dropWhile (· != ')') with
    | _ :: after => some (rest.takeWhile (· != ')'), after)
    | [] => none
  | _ => none

/-- An enumeration. -/
def enumeration? : List Char → Option (PropertyType × List Char)
  | 'E' :: 'n' :: 'u' :: 'm' :: cs => do
    let (content, rest) ← inParentheses? cs
    let values ← (cutAtCommas content).mapM nameIn?
    return (.enumeration values, rest)
  | _ => none

/-- A reference. -/
def reference? : List Char → Option (PropertyType × List Char)
  | 'R' :: 'e' :: 'f' :: cs => do
    let (content, rest) ← inParentheses? cs
    let target ← nameIn? content
    return (.reference target, rest)
  | _ => none

/-- A scalar type; its name is the whole identifier. -/
def scalar? (cs : List Char) : Option (PropertyType × List Char) := do
  let (name, rest) ← takeIdentifier cs
  let t ← scalars.lookup (String.ofList name)
  return (t, rest)

/-- A type that is no collection, and what follows it. -/
def base? (cs : List Char) : Option (PropertyType × List Char) :=
  enumeration? cs <|> reference? cs <|> scalar? cs

/-- The number of collection layers that follow, and what stands after them and any blanks. -/
def takeLayers : List Char → Nat × List Char
  | '[' :: ']' :: rest => ((takeLayers rest).1 + 1, (takeLayers rest).2)
  | c :: rest => if isSpace c then takeLayers rest else (0, c :: rest)
  | [] => (0, [])

/-- The type that a list of characters denotes. -/
def parseChars (cs : List Char) : Except TypeFailure PropertyType :=
  let cs := skipSpace cs
  match base? cs with
  | some (base, rest) =>
    match takeLayers rest with
    | (depth, []) => .ok (wrap depth base)
    | (_, rest) => .error (.leftOver rest)
  | none => .error (if (takeIdentifier cs).isSome then .noType cs else .noName cs)

/-- The type that a text denotes. -/
def parse (source : String) : Except TypeFailure PropertyType := parseChars source.toList

end PropertyType

end LiveSchema
