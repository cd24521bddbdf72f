/-!
The SHA-256 digest of a byte string.

The padded bytes are cut into blocks of sixteen words of 32 bits. Each block is stretched to
sixty-four words, and with these the eight words of the state are stirred in as many rounds.
-/

namespace RenderLayout.Sha256

/-- The state before the first block: the first 32 bits of the fractions of the square roots of the
first eight primes. -/
def initial : List UInt32 :=
  [0x6a09e667, 0xbb67ae85, 0x3c6ef372, 0xa54ff53a, 0x510e527f, 0x9b05688c,
    0x1f83d9ab, 0x5be0cd19]

/-- One constant for each round: the first 32 bits of the fractions of the cube roots of the first
sixty-four primes. -/
def roundConstants : List UInt32 :=
  [0x428a2f98, 0x71374491, 0xb5c0fbcf, 0xe9b5dba5, 0x3956c25b, 0x59f111f1,
    0x923f82a4, 0xab1c5ed5, 0xd807aa98, 0x12835b01, 0x243185be, 0x550c7dc3,
    0x72be5d74, 0x80deb1fe, 0x9bdc06a7, 0xc19bf174, 0xe49b69c1, 0xefbe4786,
    0x0fc19dc6, 0x240ca1cc, 0x2de92c6f, 0x4a7484aa, 0x5cb0a9dc, 0x76f988da,
    0x983e5152, 0xa831c66d, 0xb00327c8, 0xbf597fc7, 0xc6e00bf3, 0xd5a79147,
    0x06ca6351, 0x14292967, 0x27b70a85, 0x2e1b2138, 0x4d2c6dfc, 0x53380d13,
    0x650a7354, 0x766a0abb, 0x81c2c92e, 0x92722c85, 0xa2bfe8a1, 0xa81a664b,
    0xc24b8b70, 0xc76c51a3, 0xd192e819, 0xd6990624, 0xf40e3585, 0x106aa070,
    0x19a4c116, 0x1e376c08, 0x2748774c, 0x34b0bcb5, 0x391c0cb3, 0x4ed8aa4a,
    0x5b9cca4f, 0x682e6ff3, 0x748f82ee, 0x78a5636f, 0x84c87814, 0x8cc70208,
    0x90befffa, 0xa4506ceb, 0xbef9a3f7, 0xc67178f2]

def rotateRight (x : UInt32) (n : UInt32) : UInt32 := (x >>> n) ||| (x <<< (32 - n))

/-- The next word of the schedule from the sixteen words before it, the latest one first. -/
def nextWord (latest : List UInt32) : UInt32 :=
  let word (back : Nat) := latest.getD (back - 1) 0
  let old := word 15
  let recent := word 2
  let mixOld := rotateRight old 7 ^^^ rotateRight old 18 ^^^ (old >>> 3)
  let mixRecent := rotateRight recent 17 ^^^ rotateRight recent 19 ^^^ (recent >>> 10)
  word 16 + mixOld + word 7 + mixRecent

/-- The schedule with `count` more words, the latest one first. -/
def extend : Nat → List UInt32 → List UInt32
  | 0, latest => latest
  | count + 1, latest => extend count (nextWord latest :: latest)

/-- The sixty-four words of a block. -/
def schedule (block : List UInt32) : List UInt32 := (extend 48 block.reverse).reverse

structure State where
  a : UInt32
  b : UInt32
  c : UInt32
  d : UInt32
  e : UInt32
  f : UInt32
  g : UInt32
  h : UInt32

def State.ofWords (words : List UInt32) : State :=
  let word (i : Nat) := words.getD i 0
  ⟨word 0, word 1, word 2, word 3, word 4, word 5, word 6, word 7⟩

def State.words (s : State) : List UInt32 := [s.a, s.b, s.c, s.d, s.e, s.f, s.g, s.h]

/-- One round with the sum of a constant and a word of the schedule. -/
def State.stir (s : State) (addend : UInt32) : State :=
  let mixE := rotateRight s.e 6 ^^^ rotateRight s.e 11 ^^^ rotateRight s.e 25
  let choice := (s.e &&& s.f) ^^^ (~~~s.e &&& s.g)
  let first := s.h + mixE + choice + addend
  let mixA := rotateRight s.a 2 ^^^ rotateRight s.a 13 ^^^ rotateRight s.a 22
  let majority := (s.a &&& s.b) ^^^ (s.a &&& s.c) ^^^ (s.b &&& s.c)
  ⟨first + mixA + majority, s.a, s.b, s.c, s.d + first, s.e, s.f, s.g⟩

/-- The state after a block. -/
def compress (state block : List UInt32) : List UInt32 :=
  let addends := List.zipWith (· + ·) roundConstants (schedule block)
  List.zipWith (· + ·) state (addends.foldl State.stir (.ofWords state)).words

/-- A number as so many bytes, the highest first. -/
def bigEndian (count n : Nat) : List UInt8 :=
  (List.range count).map fun i => UInt8.ofNat (n / Nat.pow 256 (count - 1 - i))

/-- The bytes, a single bit, zeros up to the last eight bytes of a block, and the number of bits. -/
def pad (bytes : List UInt8) : List UInt8 :=
  let zeros := (119 - bytes.length % 64) % 64
  bytes ++ 0x80 :: (List.replicate zeros 0 ++ bigEndian 8 (8 * bytes.length))

def wordsOfBytes : List UInt8 → List UInt32
  | a :: b :: c :: d :: rest =>
    ((a.toUInt32 <<< 24) ||| (b.toUInt32 <<< 16) ||| (c.toUInt32 <<< 8) ||| d.toUInt32) ::
      wordsOfBytes rest
  | _ => []

/-- The state after at most `count` blocks of sixteen words. -/
def absorb : Nat → List UInt32 → List UInt32 → List UInt32
  | 0, state, _ => state
  | count + 1, state, words =>
    if words.isEmpty then state else absorb count (compress state (words.take 16)) (words.drop 16)

def digest (bytes : List UInt8) : List UInt8 :=
  let words := wordsOfBytes (pad bytes)
  (absorb (words.length / 16) initial words).flatMap fun word => bigEndian 4 word.toNat

/-- The digest in hexadecimal. -/
def hex (bytes : List UInt8) : String :=
  String.ofList ((digest bytes).flatMap fun byte =>
    [Nat.digitChar (byte.toNat / 16), Nat.digitChar (byte.toNat % 16)])

def hexOfText (text : String) : String := hex text.toUTF8.toList

end RenderLayout.Sha256
