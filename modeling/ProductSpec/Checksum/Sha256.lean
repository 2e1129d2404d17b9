/-
  SHA-256 digests. A message is padded to whole blocks of sixty-four bytes, and each block is
  worked into a state of eight words.
-/

namespace ProductSpec.Sha256

/-- The eight words that are carried from block to block. -/
structure State where
  a : UInt32
  b : UInt32
  c : UInt32
  d : UInt32
  e : UInt32
  f : UInt32
  g : UInt32
  h : UInt32
deriving DecidableEq, Repr

/-- The first 32 bits of the fractional parts of the square roots of the first eight primes. -/
def State.initial : State :=
  ⟨0x6a09e667, 0xbb67ae85, 0x3c6ef372, 0xa54ff53a, 0x510e527f, 0x9b05688c, 0x1f83d9ab, 0x5be0cd19⟩

/-- The first 32 bits of the fractional parts of the cube roots of the first 64 primes. -/
def roundConstants : List UInt32 :=
  [0x428a2f98, 0x71374491, 0xb5c0fbcf, 0xe9b5dba5, 0x3956c25b, 0x59f111f1, 0x923f82a4, 0xab1c5ed5,
   0xd807aa98, 0x12835b01, 0x243185be, 0x550c7dc3, 0x72be5d74, 0x80deb1fe, 0x9bdc06a7, 0xc19bf174,
   0xe49b69c1, 0xefbe4786, 0x0fc19dc6, 0x240ca1cc, 0x2de92c6f, 0x4a7484aa, 0x5cb0a9dc, 0x76f988da,
   0x983e5152, 0xa831c66d, 0xb00327c8, 0xbf597fc7, 0xc6e00bf3, 0xd5a79147, 0x06ca6351, 0x14292967,
   0x27b70a85, 0x2e1b2138, 0x4d2c6dfc, 0x53380d13, 0x650a7354, 0x766a0abb, 0x81c2c92e, 0x92722c85,
   0xa2bfe8a1, 0xa81a664b, 0xc24b8b70, 0xc76c51a3, 0xd192e819, 0xd6990624, 0xf40e3585, 0x106aa070,
   0x19a4c116, 0x1e376c08, 0x2748774c, 0x34b0bcb5, 0x391c0cb3, 0x4ed8aa4a, 0x5b9cca4f, 0x682e6ff3,
   0x748f82ee, 0x78a5636f, 0x84c87814, 0x8cc70208, 0x90befffa, 0xa4506ceb, 0xbef9a3f7, 0xc67178f2]

def rotateRight (x : UInt32) (n : UInt32) : UInt32 := (x >>> n) ||| (x <<< (32 - n))

/-- One round takes a constant and a word of the schedule. -/
def round (s : State) (constant word : UInt32) : State :=
  let mixed := rotateRight s.e 6 ^^^ rotateRight s.e 11 ^^^ rotateRight s.e 25
  let choice := (s.e &&& s.f) ^^^ (~~~ s.e &&& s.g)
  let first := s.h + mixed + choice + constant + word
  let spread := rotateRight s.a 2 ^^^ rotateRight s.a 13 ^^^ rotateRight s.a 22
  let majority := (s.a &&& s.b) ^^^ (s.a &&& s.c) ^^^ (s.b &&& s.c)
  ⟨first + (spread + majority), s.a, s.b, s.c, s.d + first, s.e, s.f, s.g⟩

/-- The next word of a schedule, from the last sixteen. -/
def nextWord : List UInt32 → UInt32
  | [w0, w1, _, _, _, _, _, _, _, w9, _, _, _, _, w14, _] =>
    let small := rotateRight w1 7 ^^^ rotateRight w1 18 ^^^ (w1 >>> 3)
    let large := rotateRight w14 17 ^^^ rotateRight w14 19 ^^^ (w14 >>> 10)
    w0 + small + w9 + large
  | _ => 0

/-- Runs the rounds over a block of sixteen words; `window` holds the current word and the
fifteen after it. -/
def rounds : List UInt32 → List UInt32 → State → State
  | [], _, s => s
  | constant :: rest, window, s =>
    rounds rest (window.drop 1 ++ [nextWord window]) (round s constant (window.headD 0))

def State.add (s t : State) : State :=
  ⟨s.a + t.a, s.b + t.b, s.c + t.c, s.d + t.d, s.e + t.e, s.f + t.f, s.g + t.g, s.h + t.h⟩

/-- Works one block into the state. -/
def compress (s : State) (block : List UInt32) : State := s.add (rounds roundConstants block s)

/-- Four bytes make a word, the first byte being the highest. -/
def wordsOf : List UInt8 → List UInt32
  | a :: b :: c :: d :: rest =>
    ((a.toUInt32 <<< 24) ||| (b.toUInt32 <<< 16) ||| (c.toUInt32 <<< 8) ||| d.toUInt32) ::
      wordsOf rest
  | _ => []

/-- The lowest `count` bytes of a number, the highest first. -/
def bytesOf (n : Nat) : (count : Nat) → List UInt8
  | 0 => []
  | count + 1 => bytesOf (n / 256) count ++ [UInt8.ofNat n]

/-- The message, a set bit, the fewest zeros that fill up a block, and the count of bits. -/
def pad (message : List UInt8) : List UInt8 :=
  let zeros := (119 - message.length % 64) % 64
  message ++ [0x80] ++ List.replicate zeros 0 ++ bytesOf (8 * message.length) 8

/-- The groups of sixteen words. -/
def blocks (words : List UInt32) : List (List UInt32) :=
  (List.range (words.length / 16)).map fun i => (words.drop (16 * i)).take 16

/-- The state after the whole message. -/
def digest (message : List UInt8) : State :=
  (blocks (wordsOf (pad message))).foldl compress State.initial

def State.words (s : State) : List UInt32 := [s.a, s.b, s.c, s.d, s.e, s.f, s.g, s.h]

def hexDigit (n : Nat) : Char := "0123456789abcdef".toList.getD n '0'

/-- A byte as two hexadecimal digits. -/
def hexByte (b : UInt8) : List Char := [hexDigit (b.toNat / 16), hexDigit (b.toNat % 16)]

/-- The digest as 64 hexadecimal digits. -/
def hexDigest (message : List UInt8) : List Char :=
  (digest message).words.flatMap fun w => (bytesOf w.toNat 4).flatMap hexByte

theorem length_bytesOf (n count : Nat) : (bytesOf n count).length = count := by
  induction count generalizing n with
  | zero => rfl
  | succ count ih => simp [bytesOf, ih]

theorem length_hexDigest (message : List UInt8) : (hexDigest message).length = 64 := by
  have pairs (bytes : List UInt8) : (bytes.flatMap hexByte).length = 2 * bytes.length := by
    induction bytes with
    | nil => rfl
    | cons b rest ih => simp [hexByte, ih]; omega
  simp [hexDigest, State.words, pairs, length_bytesOf]

end ProductSpec.Sha256
