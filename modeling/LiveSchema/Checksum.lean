/-!
# LiveSchema.Checksum

The 32-bit cyclic redundancy check with the reflected polynomial `0xEDB88320`, initial value and
final complement all ones. It fingerprints the source of helper units: two units whose sources
differ are told apart by one short number.
-/

namespace LiveSchema.Checksum

/-- The polynomial, lowest power in the highest bit. -/
def polynomial : UInt32 := 0xEDB88320

/-- Shift one bit out of the register. -/
def shiftBit (register : UInt32) : UInt32 :=
  if register &&& 1 == 1 then (register >>> 1) ^^^ polynomial else register >>> 1

/-- Take one byte into the register. -/
def takeByte (register : UInt32) (byte : UInt8) : UInt32 :=
  (List.range 8).foldl (fun r _ => shiftBit r) (register ^^^ byte.toUInt32)

/-- The check value of a sequence of bytes. -/
def ofBytes (bytes : List UInt8) : UInt32 :=
  (bytes.foldl takeByte 0xFFFFFFFF) ^^^ 0xFFFFFFFF

/-- The check value of the UTF-8 form of a text. -/
def ofText (s : String) : UInt32 := ofBytes s.toUTF8.toList

end LiveSchema.Checksum
