import IndexAdvisor.Random.Keystream
import IndexAdvisor.Text.Hex

/-!
# Random ids

Ids of 128 bits, written as 32 hexadecimal digits without hyphens. Six of the bits are fixed and
mark the id as a random one; the others are words of a keystream.
-/

set_option autoImplicit false

namespace IndexAdvisor.Random

/-- The id of four words. -/
def identifier (a b c d : UInt32) : String :=
  let marked := [a, (b &&& 0xFFFF0FFF) ||| 0x4000, (c &&& 0x3FFFFFFF) ||| 0x80000000, d]
  String.ofList (marked.flatMap fun w => Text.hexDigits 8 w.toNat)

/-- The id at a position of the ids of a keystream. -/
def identifierAt (key : Key) (position : Nat) : String :=
  let word (k : Nat) := streamWord key (4 * position + k)
  identifier (word 0) (word 1) (word 2) (word 3)

end IndexAdvisor.Random
