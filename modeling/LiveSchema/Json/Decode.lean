import LiveSchema.Decimal.Notation
import LiveSchema.Json.Reader
import LiveSchema.Text.Quoted

/-!
# LiveSchema.Json.Decode

Reading records from JSON, and what is said when that fails.

A record may be written as an object or as the list of its fields in declaration order. Fields are
looked at in the order in which they are written, so that the first thing wrong is reported; fields
that a record does not have are passed over; a field that is missing takes its default, and if it
has none the first such field in declaration order is reported after all others have been looked at.

* `DecodeError` — why no record can be read, with its one wording `DecodeError.message`.
* `Origin` — whether the record stands in a text or in a value that was read before; a few messages
  differ.
* `Decoder` — from a document to a value; `Decoder.text`, `flag`, `natural`, `listOf`, `optional`.
* `choice` — a name, or an object whose one key is the name.
* `RecordDecoder` — a record, put together from `required` and `withDefault` fields.
-/

namespace LiveSchema

/-- Why no record can be read. -/
inductive DecodeError where
  | fault (fault : Fault)
  | missingField (name : String)
  | duplicateField (name : String)
  | unknownAlternative (name : String) (known : List String)
  | wrongType (found : Found) (expected : String)
  | wrongValue (found : Found) (expected : String)
  | wrongLength (length : Nat) (expected : String)

/-- How a value is called in messages. -/
def Found.message : Found → String
  | .null => "null"
  | .boolean b => "boolean `" ++ (if b then "true" else "false") ++ "`"
  | .integer n => "integer `" ++ toString n ++ "`"
  | .float x => "floating point `" ++ Decimal.ofFloat x ++ "`"
  | .string s => "string " ++ Text.quoted s
  | .sequence => "sequence"
  | .map => "map"
  | .bareName => "unit variant"

/-- A name between grave accents. -/
def ticked (name : String) : String := "`" ++ name ++ "`"

/-- The wording of a failure. -/
def DecodeError.message : DecodeError → String
  | .fault place => place.message
  | .missingField name => "missing field " ++ ticked name
  | .duplicateField name => "duplicate field " ++ ticked name
  | .unknownAlternative name [a, b] =>
    "unknown variant " ++ ticked name ++ ", expected " ++ ticked a ++ " or " ++ ticked b
  | .unknownAlternative name known =>
    "unknown variant " ++ ticked name ++ ", expected one of " ++ ", ".intercalate (known.map ticked)
  | .wrongType found expected => "invalid type: " ++ found.message ++ ", expected " ++ expected
  | .wrongValue found expected => "invalid value: " ++ found.message ++ ", expected " ++ expected
  | .wrongLength length expected =>
    "invalid length " ++ toString length ++ ", expected " ++ expected

/-- Where a record stands. -/
inductive Origin where
  /-- In a text, which may break off. -/
  | text
  /-- In a value that was read before. -/
  | value
deriving DecidableEq

/-- A way to read a document. -/
abbrev Decoder (α : Type) := Origin → Document → Except DecodeError α

/-- A fault as a failure to read a record. -/
def orFault {α : Type} : Except Fault α → Except DecodeError α
  | .ok a => .ok a
  | .error fault => .error (.fault fault)

/-- The failure to find the expected kind of value. -/
def mismatch {α : Type} (expected : String) (d : Document) : Except DecodeError α := do
  let found ← orFault d.found
  .error (.wrongType found expected)

namespace Decoder

/-- A string, called `expected` in messages. -/
def textCalled (expected : String) : Decoder String
  | _, .string s => orFault s
  | _, d => mismatch expected d

/-- A string. -/
def text : Decoder String := textCalled "a string"

/-- A truth value. -/
def flag : Decoder Bool
  | _, .bool b => .ok b
  | _, d => mismatch "a boolean" d

/-- A natural number of 64 bits. -/
def natural : Decoder Nat
  | _, .number (.ok (.int n)) =>
    if n < 0 then .error (.wrongValue (.integer n) "usize") else .ok n.toNat
  | _, d => mismatch "usize" d

/-- `null` for an absent value. -/
def optional {α : Type} (decode : Decoder α) : Decoder (Option α)
  | _, .null => .ok none
  | origin, d => some <$> decode origin d

/-- The items of a list, in order. -/
def items {α : Type} (decode : Document → Except DecodeError α) :
    List Document → Except DecodeError (List α)
  | [] => .ok []
  | d :: rest => do return (← decode d) :: (← items decode rest)

/-- A list. -/
def listOf {α : Type} (decode : Decoder α) : Decoder (List α)
  | origin, .list ds ending => do
    let read ← items (decode origin) ds
    orFault (Document.closed Break.reading ending)
    return read
  | _, d => mismatch "a sequence" d

/-- The content of an alternative that has none. -/
def nothing : Decoder Unit
  | _, .null => .ok ()
  | _, d => mismatch "unit" d

end Decoder

/-! ### Alternatives -/

/-- The value of an alternative without content. -/
def alternative {α : Type} (known : List (String × α)) (name : String) : Except DecodeError α :=
  match known.lookup name with
  | some a => .ok a
  | none => .error (.unknownAlternative name (known.map (·.1)))

/-- Nothing may follow the one field of an object that names an alternative. -/
def closedAfterChoice : Option Break → Except DecodeError Unit
  | none => .ok ()
  | some place =>
    .error (.fault (if place.reading = .endInObject then .endInObject else .expectedValue))

/-- The failure to find the name of an alternative in an object without fields. -/
def noChoice {α : Type} : Option Break → Except DecodeError α
  | none => .error (.fault .expectedValue)
  | some place => .error (.fault place.reading)

/-- One of several alternatives without content: its name, or an object with the name as its one key
and `null` as the value. -/
def choice {α : Type} (known : List (String × α)) : Decoder α
  | _, .string s => do alternative known (← orFault s)
  | .text, .object [] ending => noChoice ending
  | .text, .object ((name, content) :: rest) ending => do
    let a ← alternative known (← orFault name)
    Decoder.nothing .text content
    if rest.isEmpty then closedAfterChoice ending else .error (.fault .expectedValue)
    return a
  | .value, .object [(name, content)] _ => do
    let a ← alternative known (← orFault name)
    Decoder.nothing .value content
    return a
  | .value, .object _ _ => .error (.wrongValue .map "map with a single key")
  | .value, d => mismatch "string or map" d
  | .text, .broken place => .error (.fault place.choosing)
  | .text, _ => .error (.fault .expectedValue)

/-! ### Records -/

/-- The written fields of a record, and what to say of a field that is not among them. -/
structure Parts where
  entries : List (String × Document)
  missing : String → DecodeError

/-- How to read a record: a check for each of its fields, in declaration order, and how the record
is put together once all written fields have passed their checks. -/
structure RecordDecoder (α : Type) where
  fields : List (String × Decoder Unit)
  build : Origin → Parts → Except DecodeError α

namespace RecordDecoder

variable {α β : Type}

/-- A field that has to be written. -/
def required (name : String) (decode : Decoder α) : RecordDecoder α where
  fields := [(name, fun origin d => (fun _ => ()) <$> decode origin d)]
  build := fun origin parts =>
    match parts.entries.lookup name with
    | some d => decode origin d
    | none => .error (parts.missing name)

/-- A field that may be left out. -/
def withDefault (name : String) (fallback : α) (decode : Decoder α) : RecordDecoder α where
  fields := [(name, fun origin d => (fun _ => ()) <$> decode origin d)]
  build := fun origin parts =>
    match parts.entries.lookup name with
    | some d => decode origin d
    | none => .ok fallback

/-- The record whose last field is still to be given, and that field. -/
def apply (f : RecordDecoder (α → β)) (a : RecordDecoder α) : RecordDecoder β where
  fields := f.fields ++ a.fields
  build := fun origin parts => do
    let f ← f.build origin parts
    let a ← a.build origin parts
    return f a

/-- A record without fields. -/
def pure (a : α) : RecordDecoder α := ⟨[], fun _ _ => .ok a⟩

instance : Functor RecordDecoder :=
  ⟨fun f a => apply (pure f) a, fun b a => apply (pure fun _ => b) a⟩

instance : Seq RecordDecoder := ⟨fun f a => apply f (a ())⟩

/-- Look at written fields in their order. -/
def checkEntries (known : List (String × Decoder Unit)) (origin : Origin) (seen : List String) :
    List (Except Fault String × Document) → Except DecodeError (List (String × Document))
  | [] => .ok []
  | (key, d) :: rest => do
    let name ← orFault key
    match known.lookup name with
    | some check =>
      if seen.contains name then .error (.duplicateField name) else check origin d
    | none => orFault d.skip
    return (name, d) :: (← checkEntries known origin (name :: seen) rest)

/-- What a list may hold after the items for all fields. -/
def closedAfterItems (origin : Origin) (extra : List Document) (length : Nat)
    (ending : Option Break) : Except DecodeError Unit :=
  match origin, extra, ending with
  | _, [], none => .ok ()
  | .value, _, _ => .error (.wrongLength length "fewer elements in array")
  | .text, [], some place =>
    if place.reading = .trailingComma ∨ place.reading = .endInList then
      .error (.fault place.reading)
    else .error (.fault .trailingCharacters)
  | .text, _ :: _, _ => .error (.fault .trailingCharacters)

/-- Read a record that messages call `title`. -/
def run (title : String) (record : RecordDecoder α) : Decoder α
  | origin, .object entries ending => do
    let entries ← checkEntries record.fields origin [] entries
    orFault (Document.closed Break.reading ending)
    record.build origin ⟨entries, .missingField⟩
  | origin, .list items ending => do
    let count := record.fields.length
    let written := (record.fields.map (fun f => Except.ok f.1)).zip items
    let entries ← checkEntries record.fields origin [] written
    if items.length < count then orFault (Document.closed Break.reading ending)
    let a ← record.build origin ⟨entries, fun _ =>
      .wrongLength items.length (title ++ " with " ++ toString count ++ " elements")⟩
    if count ≤ items.length then closedAfterItems origin (items.drop count) items.length ending
    return a
  | _, d => mismatch title d

end RecordDecoder

/-- Read a whole text. -/
def decodeText {α : Type} (decode : Decoder α) (s : String) : Except DecodeError α := do
  let text := Json.Text.ofString s
  let a ← decode .text text.document
  if text.trailing then .error (.fault .trailingCharacters) else return a

/-- Read a value. -/
def decodeJson {α : Type} (decode : Decoder α) (v : Json) : Except DecodeError α :=
  decode .value (.ofJson v)

end LiveSchema
