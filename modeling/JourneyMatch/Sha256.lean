import JourneyMatch.Power

/-
  This file defines the SHA-256 digest of a list of bytes.

  Key definitions include:
    * `Sha256.pad`
    * `Sha256.schedule`
    * `Sha256.compress`
    * `Sha256.digest`
    * `Sha256.length_digest`
-/

namespace JourneyMatch

namespace Sha256

------------------------------------------------------------
-- Words
------------------------------------------------------------

/- Rotates a word to the right. -/
def rotate
    (x : UInt32)
    (n : UInt32) : UInt32 :=
  (x >>> n) ||| (x <<< (32 - n))

/- Takes bytes four at a time, the most significant first. -/
def words : List UInt8 → List UInt32
  | a :: b :: c :: d :: rest =>
      ((a.toUInt32 <<< 24) ||| (b.toUInt32 <<< 16)
        ||| (c.toUInt32 <<< 8) ||| d.toUInt32) :: words rest
  | _ => []

/- The four bytes of a word, the most significant first. -/
def wordBytes
    (w : UInt32) : List UInt8 :=
  [(w >>> 24).toUInt8, (w >>> 16).toUInt8,
    (w >>> 8).toUInt8, w.toUInt8]

/- The eight bytes of a length in bits. -/
def lengthBytes
    (n : Nat) : List UInt8 :=
  wordBytes (UInt32.ofNat (n / twoTo 32))
    ++ wordBytes (UInt32.ofNat n)

------------------------------------------------------------
-- Blocks
------------------------------------------------------------

/-
  Fills a message up to whole blocks of 64 bytes: a set bit,
  zeros, and the length of the message in bits.
-/
def pad
    (message : List UInt8) : List UInt8 :=
  let zeros := (119 - message.length % 64) % 64
  message ++ 0x80 :: List.replicate zeros 0
    ++ lengthBytes (8 * message.length)

/-
  Continues a block's sixteen words to the given number, each
  word being made from the sixteen before it.
-/
def schedule :
    Nat → List UInt32 → List UInt32
  | 0, _ => []
  | n + 1, window =>
      let word (i : Nat) : UInt32 := window.getD i 0
      let low :=
        rotate (word 1) 7 ^^^ rotate (word 1) 18
          ^^^ (word 1 >>> 3)
      let high :=
        rotate (word 14) 17 ^^^ rotate (word 14) 19
          ^^^ (word 14 >>> 10)
      let next := word 0 + low + word 9 + high
      word 0 :: schedule n (window.drop 1 ++ [next])

------------------------------------------------------------
-- Compression
------------------------------------------------------------

/- The eight words that a digest is made of. -/
structure State where
  a : UInt32
  b : UInt32
  c : UInt32
  d : UInt32
  e : UInt32
  f : UInt32
  g : UInt32
  h : UInt32
  deriving DecidableEq, Repr

/- The state before the first block. -/
def initial : State :=
  { a := 0x6a09e667
    b := 0xbb67ae85
    c := 0x3c6ef372
    d := 0xa54ff53a
    e := 0x510e527f
    f := 0x9b05688c
    g := 0x1f83d9ab
    h := 0x5be0cd19 }

/- The constants of the 64 rounds. -/
def constants : List UInt32 :=
  [0x428a2f98, 0x71374491, 0xb5c0fbcf, 0xe9b5dba5,
   0x3956c25b, 0x59f111f1, 0x923f82a4, 0xab1c5ed5,
   0xd807aa98, 0x12835b01, 0x243185be, 0x550c7dc3,
   0x72be5d74, 0x80deb1fe, 0x9bdc06a7, 0xc19bf174,
   0xe49b69c1, 0xefbe4786, 0x0fc19dc6, 0x240ca1cc,
   0x2de92c6f, 0x4a7484aa, 0x5cb0a9dc, 0x76f988da,
   0x983e5152, 0xa831c66d, 0xb00327c8, 0xbf597fc7,
   0xc6e00bf3, 0xd5a79147, 0x06ca6351, 0x14292967,
   0x27b70a85, 0x2e1b2138, 0x4d2c6dfc, 0x53380d13,
   0x650a7354, 0x766a0abb, 0x81c2c92e, 0x92722c85,
   0xa2bfe8a1, 0xa81a664b, 0xc24b8b70, 0xc76c51a3,
   0xd192e819, 0xd6990624, 0xf40e3585, 0x106aa070,
   0x19a4c116, 0x1e376c08, 0x2748774c, 0x34b0bcb5,
   0x391c0cb3, 0x4ed8aa4a, 0x5b9cca4f, 0x682e6ff3,
   0x748f82ee, 0x78a5636f, 0x84c87814, 0x8cc70208,
   0x90befffa, 0xa4506ceb, 0xbef9a3f7, 0xc67178f2]

/- One round, with its constant and its word. -/
def round
    (s : State)
    (input : UInt32 × UInt32) : State :=
  let mixE := rotate s.e 6 ^^^ rotate s.e 11 ^^^ rotate s.e 25
  let choice := (s.e &&& s.f) ^^^ (~~~ s.e &&& s.g)
  let first := s.h + mixE + choice + input.1 + input.2
  let mixA := rotate s.a 2 ^^^ rotate s.a 13 ^^^ rotate s.a 22
  let majority :=
    (s.a &&& s.b) ^^^ (s.a &&& s.c) ^^^ (s.b &&& s.c)
  { a := first + (mixA + majority)
    b := s.a
    c := s.b
    d := s.c
    e := s.d + first
    f := s.e
    g := s.f
    h := s.g }

/- Adds two states word by word. -/
def State.add
    (s t : State) : State :=
  { a := s.a + t.a
    b := s.b + t.b
    c := s.c + t.c
    d := s.d + t.d
    e := s.e + t.e
    f := s.f + t.f
    g := s.g + t.g
    h := s.h + t.h }

/- Takes one block of sixteen words into the state. -/
def compress
    (s : State)
    (block : List UInt32) : State :=
  s.add ((constants.zip (schedule 64 block)).foldl round s)

/- Takes the given number of blocks into the state. -/
def compressAll :
    Nat → List UInt32 → State → State
  | 0, _, s => s
  | n + 1, input, s =>
      compressAll n (input.drop 16) (compress s (input.take 16))

/- The bytes of a state. -/
def State.bytes
    (s : State) : List UInt8 :=
  wordBytes s.a ++ wordBytes s.b ++ wordBytes s.c
    ++ wordBytes s.d ++ wordBytes s.e ++ wordBytes s.f
    ++ wordBytes s.g ++ wordBytes s.h

/- The digest of a message. -/
def digest
    (message : List UInt8) : List UInt8 :=
  let padded := pad message
  (compressAll (padded.length / 64) (words padded) initial).bytes

/- A digest has 32 bytes. -/
theorem length_digest
    (message : List UInt8) :
    (digest message).length = 32 := by
  simp [digest, State.bytes, wordBytes]

end Sha256

end JourneyMatch
