import ModuleRecord.Bytes.Basic

/-!
# The checksum of archive entries

The remainder of a byte string, as a polynomial over two elements, by the reflected polynomial
`EDB88320`, with all bits flipped before and after.
-/

namespace ModuleRecord
namespace Crc32

/-- Divides by one more bit. -/
def stepBit (sum : UInt32) : UInt32 :=
  if sum &&& 1 = 1 then (sum >>> 1) ^^^ 0xEDB88320 else sum >>> 1

/-- Divides by one more byte. -/
def stepByte (sum : UInt32) (byte : UInt8) : UInt32 :=
  (List.range 8).foldl (fun sum _ => stepBit sum) (sum ^^^ byte.toUInt32)

/-- The checksum of a byte string. -/
def checksum (bytes : Bytes) : UInt32 :=
  bytes.foldl stepByte 0xFFFFFFFF ^^^ 0xFFFFFFFF

end Crc32
end ModuleRecord
