/-!
# The ChaCha keystream

Words of the ChaCha stream cipher with twelve rounds, a key of eight words, a block counter of 64
bits from zero and a nonce of zero. A word is found by its position in the stream alone.
-/

set_option autoImplicit false

namespace IndexAdvisor.Random

/-- The sixteen words of a block. -/
abbrev Block := Vector UInt32 16

/-- The key of a stream. -/
abbrev Key := Vector UInt32 8

/-- Turns a word to the left. -/
def rotateLeft (x : UInt32) (n : UInt32) : UInt32 := (x <<< n) ||| (x >>> (32 - n))

/-- Mixes four words of a block. -/
def quarterRound (s : Block) (a b c d : Fin 16) : Block :=
  let half (s : Block) (m n : UInt32) : Block :=
    let s := s.set a (s[a] + s[b])
    let s := s.set d (rotateLeft (s[d] ^^^ s[a]) m)
    let s := s.set c (s[c] + s[d])
    s.set b (rotateLeft (s[b] ^^^ s[c]) n)
  half (half s 16 12) 8 7

/-- Mixes the columns of a block and then its diagonals: two rounds. -/
def doubleRound (s : Block) : Block :=
  let s := quarterRound s 0 4 8 12
  let s := quarterRound s 1 5 9 13
  let s := quarterRound s 2 6 10 14
  let s := quarterRound s 3 7 11 15
  let s := quarterRound s 0 5 10 15
  let s := quarterRound s 1 6 11 12
  let s := quarterRound s 2 7 8 13
  quarterRound s 3 4 9 14

/-- The block before mixing: constants, key, counter, nonce. -/
def startBlock (key : Key) (counter : UInt64) : Block :=
  #v[0x61707865, 0x3320646e, 0x79622d32, 0x6b206574,
     key[0], key[1], key[2], key[3], key[4], key[5], key[6], key[7],
     counter.toUInt32, (counter >>> 32).toUInt32, 0, 0]

/-- The block of the stream with this counter. -/
def block (key : Key) (counter : UInt64) : Block :=
  let start := startBlock key counter
  (Nat.repeat doubleRound 6 start).zipWith (· + ·) start

/-- The word of the stream at a position. -/
def streamWord (key : Key) (position : Nat) : UInt32 :=
  (block key (UInt64.ofNat (position / 16))).get ⟨position % 16, Nat.mod_lt _ (by decide)⟩

end IndexAdvisor.Random
