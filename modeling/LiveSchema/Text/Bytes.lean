/-!
# LiveSchema.Text.Bytes

Texts as the bytes of their UTF-8 form, and back. Bytes that are no such form denote no text.
-/

namespace LiveSchema

/-- A sequence of bytes. -/
abbrev Bytes := List UInt8

namespace Text

/-- The UTF-8 form of a text. -/
def toBytes (s : String) : Bytes := s.toList.flatMap String.utf8EncodeChar

/-- The text that bytes are the UTF-8 form of. -/
def ofBytes? (bytes : Bytes) : Option String :=
  (ByteArray.utf8Decode? ⟨bytes.toArray⟩).map fun cs => String.ofList cs.toList

end Text

end LiveSchema
