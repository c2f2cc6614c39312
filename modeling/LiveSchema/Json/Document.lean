import LiveSchema.Json.Basic
import LiveSchema.Json.Fault

/-!
# LiveSchema.Json.Document

What a JSON text says up to the place where it stops being JSON. Records are read in the order of
their text, and the first thing wrong is what is reported: a field of the wrong kind before a comma
that is missing further on. So a text is not refused as a whole. It is read into a `Document`, in
which the places where it breaks off are marked; who reads a record off the document meets the marks
in their order.

A reader may also pass over a value that it has no use for. It then checks less: an unpaired
surrogate or a number too large for a double goes unnoticed. Hence a `Break` holds one fault for
each way of looking at it, and strings and numbers hold the fault of reading them.

* `Document` — the marked text.
* `Document.ofJson` — a value as a document, without marks.
* `Document.skip` — pass over a document.
* `Document.toJson` — read a document as a value.
-/

namespace LiveSchema

/-- What stands where another kind of value is due. -/
inductive Found where
  | null
  | boolean (value : Bool)
  | integer (value : Int)
  | float (value : Float)
  | string (value : String)
  | sequence
  | map
  /-- The bare name of an alternative that has a content. -/
  | bareName
deriving DecidableEq

/-- A place where a text breaks off. -/
structure Break where
  /-- The fault for who wants the value. -/
  reading : Fault
  /-- The fault for who passes over the value. -/
  skipping : Fault
  /-- The fault for who wants the name of an alternative. -/
  choosing : Fault

/-- A break that looks the same to everyone. -/
def Break.plain (fault : Fault) : Break := ⟨fault, fault, fault⟩

/-- The same break inside a value that cannot be the name of an alternative. -/
def Break.unnamed (place : Break) : Break := { place with choosing := .expectedValue }

/-- A JSON text up to the place where it breaks off. A list or an object that breaks off after its
last item or field says so in `ending`. -/
inductive Document where
  | null
  | bool (value : Bool)
  | number (value : Except Fault Number)
  | string (value : Except Fault String)
  | list (items : List Document) (ending : Option Break)
  | object (entries : List (Except Fault String × Document)) (ending : Option Break)
  | broken (place : Break)

namespace Document

instance : Inhabited Document := ⟨null⟩

mutual

/-- A value as a document. -/
def ofJson : Json → Document
  | .null => .null
  | .bool b => .bool b
  | .number n => .number (.ok n)
  | .string s => .string (.ok s)
  | .list items => .list (ofItems items) none
  | .object fields => .object (ofEntries fields) none

/-- The items of a list as documents. -/
def ofItems : List Json → List Document
  | [] => []
  | item :: rest => ofJson item :: ofItems rest

/-- The fields of an object as documents. -/
def ofEntries : List (String × Json) → List (Except Fault String × Document)
  | [] => []
  | (name, value) :: rest => (.ok name, ofJson value) :: ofEntries rest

end

/-- Whether the end of a list or object is in order. -/
def closed (fault : Break → Fault) : Option Break → Except Fault Unit
  | none => .ok ()
  | some place => .error (fault place)

mutual

/-- Pass over a document. -/
def skip : Document → Except Fault Unit
  | .list items ending => do skipItems items; closed Break.skipping ending
  | .object entries ending => do skipEntries entries; closed Break.skipping ending
  | .broken place => .error place.skipping
  | _ => .ok ()

/-- Pass over the items of a list. -/
def skipItems : List Document → Except Fault Unit
  | [] => .ok ()
  | item :: rest => do skip item; skipItems rest

/-- Pass over the fields of an object. -/
def skipEntries : List (Except Fault String × Document) → Except Fault Unit
  | [] => .ok ()
  | (_, value) :: rest => do skip value; skipEntries rest

end

mutual

/-- Read a document as a value. -/
def toJson : Document → Except Fault Json
  | .null => .ok .null
  | .bool b => .ok (.bool b)
  | .number n => do return .number (← n)
  | .string s => do return .string (← s)
  | .list items ending => do
    let items ← toItems items
    closed Break.reading ending
    return .list items
  | .object entries ending => do
    let fields ← toFields entries
    closed Break.reading ending
    return Json.ofFields fields
  | .broken place => .error place.reading

/-- Read the items of a list. -/
def toItems : List Document → Except Fault (List Json)
  | [] => .ok []
  | item :: rest => do return (← toJson item) :: (← toItems rest)

/-- Read the fields of an object. -/
def toFields : List (Except Fault String × Document) → Except Fault (List (String × Json))
  | [] => .ok []
  | (name, value) :: rest => do
    let name ← name
    let value ← toJson value
    return (name, value) :: (← toFields rest)

end

/-- What a document is to someone who expected another kind of value. -/
def found : Document → Except Fault Found
  | .null => .ok .null
  | .bool b => .ok (.boolean b)
  | .number (.ok (.int n)) => .ok (.integer n)
  | .number (.ok (.double x)) => .ok (.float x)
  | .number (.error fault) => .error fault
  | .string (.ok s) => .ok (.string s)
  | .string (.error fault) => .error fault
  | .list .. => .ok .sequence
  | .object .. => .ok .map
  | .broken place => .error place.reading

end Document

end LiveSchema
