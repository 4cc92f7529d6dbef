import XoChip.Instruction.Word

/-!
# Random bytes

The generator behind random instructions: the ChaCha stream cipher with twelve rounds, whose key
is spread out from a 64-bit seed. Block `b` of the stream is sixteen words; a draw takes the next
word and keeps its low byte. `Random.word` is the stream as a function of the position, so that
the `k`-th draw of a run is `byte key k`.
-/

namespace XoChip.Random

/-- The eight words of a key. -/
abbrev Key := Vector UInt32 8

/-- The sixteen words on which the rounds work. -/
abbrev Block := Vector UInt32 16

/-- Rotate to the left by less than thirty-two bits. -/
def rotateLeft (w : UInt32) (n : UInt32) : UInt32 := w <<< n ||| w >>> (32 - n)

/-- One step of the seed's linear congruential sequence. -/
def seedStep (s : UInt64) : UInt64 := s * 6364136223846793005 + 11634580027462260723

/-- The word that a member of the seed's sequence gives: its bits are folded, then rotated to the
    right by the five highest ones. -/
def seedWord (s : UInt64) : UInt32 :=
  let folded := (((s >>> 18) ^^^ s) >>> 27).toUInt32
  let count := (s >>> 59).toUInt32
  folded >>> count ||| folded <<< ((32 - count) % 32)

/-- The key that a seed is spread out to. -/
def keyOfSeed (seed : UInt64) : Key :=
  Vector.ofFn fun k => seedWord (Nat.repeat seedStep (k.val + 1) seed)

/-- The quarter round on the words with the given indices. -/
def quarterRound (s : Block) (a b c d : Fin 16) : Block :=
  let s := s.set a (s[a] + s[b])
  let s := s.set d (rotateLeft (s[d] ^^^ s[a]) 16)
  let s := s.set c (s[c] + s[d])
  let s := s.set b (rotateLeft (s[b] ^^^ s[c]) 12)
  let s := s.set a (s[a] + s[b])
  let s := s.set d (rotateLeft (s[d] ^^^ s[a]) 8)
  let s := s.set c (s[c] + s[d])
  s.set b (rotateLeft (s[b] ^^^ s[c]) 7)

/-- A round on the columns and one on the diagonals of the block. -/
def doubleRound (s : Block) : Block :=
  let s := quarterRound s 0 4 8 12
  let s := quarterRound s 1 5 9 13
  let s := quarterRound s 2 6 10 14
  let s := quarterRound s 3 7 11 15
  let s := quarterRound s 0 5 10 15
  let s := quarterRound s 1 6 11 12
  let s := quarterRound s 2 7 8 13
  quarterRound s 3 4 9 14

/-- The block from which the rounds start: four constants, the key, the block's number and two
    zeros. -/
def initial (key : Key) (number : UInt64) : Block :=
  #v[0x61707865, 0x3320646E, 0x79622D32, 0x6B206574,
     key[0], key[1], key[2], key[3], key[4], key[5], key[6], key[7],
     number.toUInt32, (number >>> 32).toUInt32, 0, 0]

/-- A block of the stream: six double rounds, and the initial block added. -/
def block (key : Key) (number : UInt64) : Block :=
  let start := initial key number
  Vector.zipWith (· + ·) (Nat.repeat doubleRound 6 start) start

/-- The word at a position of the stream. -/
def word (key : Key) (position : Nat) : UInt32 :=
  (block key (UInt64.ofNat (position / 16))).get (Fin.ofNat 16 position)

/-- The byte that the draw at a position gives. -/
def byte (key : Key) (position : Nat) : UInt8 := (word key position).toUInt8

end XoChip.Random

namespace XoChip

/-- A generator: its key and how many words it has given. -/
structure Random where
  key : Random.Key
  drawn : Nat := 0
  deriving DecidableEq, Repr

namespace Random

def ofSeed (seed : UInt64) : Random := { key := keyOfSeed seed }

def next (r : Random) : UInt8 × Random := (byte r.key r.drawn, { r with drawn := r.drawn + 1 })

end Random

end XoChip
