/-!
# Checksums

The cyclic redundancy check of 32 bits with the reflected polynomial `EDB88320`, which starts from
all ones and ends in the complement.
-/

set_option autoImplicit false

namespace IndexAdvisor.Store

/-- The polynomial, its highest power in the lowest bit. -/
def polynomial : UInt32 := 0xEDB88320

/-- Moves a remainder by one bit. -/
def shift (r : UInt32) : UInt32 := if r &&& 1 = 1 then (r >>> 1) ^^^ polynomial else r >>> 1

/-- The remainder after one more octet. -/
def remainder (r : UInt32) (b : UInt8) : UInt32 := Nat.repeat shift 8 (r ^^^ b.toUInt32)

/-- The checksum of some octets. -/
def checksum (bytes : List UInt8) : UInt32 := ~~~ bytes.foldl remainder 0xFFFFFFFF

end IndexAdvisor.Store
