/-!
The SHA-1 digest of a list of bytes, by the rule of the standard: the message is padded to whole
blocks of sixteen words, and each block turns the five words of the state in eighty rounds.
-/

set_option autoImplicit false

namespace SoapComponents.Digest

structure Sha1State where
  a : UInt32
  b : UInt32
  c : UInt32
  d : UInt32
  e : UInt32

def Sha1State.start : Sha1State :=
  ⟨0x67452301, 0xEFCDAB89, 0x98BADCFE, 0x10325476, 0xC3D2E1F0⟩

def Sha1State.add (s t : Sha1State) : Sha1State :=
  ⟨s.a + t.a, s.b + t.b, s.c + t.c, s.d + t.d, s.e + t.e⟩

/-- A word turned left by `n` places, for `0 < n < 32`. -/
def rotateLeft (w n : UInt32) : UInt32 := (w <<< n) ||| (w >>> (32 - n))

def roundMix (t : Nat) (b c d : UInt32) : UInt32 × UInt32 :=
  if t < 20 then ((b &&& c) ||| (~~~b &&& d), 0x5A827999)
  else if t < 40 then (b ^^^ c ^^^ d, 0x6ED9EBA1)
  else if t < 60 then ((b &&& c) ||| (b &&& d) ||| (c &&& d), 0x8F1BBCDC)
  else (b ^^^ c ^^^ d, 0xCA62C1D6)

def Sha1State.round (s : Sha1State) (t : Nat) (w : UInt32) : Sha1State :=
  let (mixed, constant) := roundMix t s.b s.c s.d
  ⟨rotateLeft s.a 5 + mixed + s.e + constant + w, s.a, rotateLeft s.b 30, s.c, s.d⟩

/-- The rounds of one block. `window` holds the next sixteen words of the schedule; each round
uses the first of them and adds one at the end. -/
def Sha1State.rounds : Nat → Nat → Sha1State → List UInt32 → Sha1State
  | 0, _, s, _ => s
  | _ + 1, _, s, [] => s
  | left + 1, t, s, w :: window =>
    let next := rotateLeft (window.getD 12 0 ^^^ window.getD 7 0 ^^^ window.getD 1 0 ^^^ w) 1
    Sha1State.rounds left (t + 1) (s.round t w) (window ++ [next])

def Sha1State.block (s : Sha1State) (words : List UInt32) : Sha1State :=
  s.add (Sha1State.rounds 80 0 s words)

def bigEndianBytes : Nat → Nat → List UInt8
  | 0, _ => []
  | count + 1, n => bigEndianBytes count (n / 256) ++ [UInt8.ofNat (n % 256)]

def bigEndianValue (bytes : List UInt8) : Nat :=
  bytes.foldl (fun n b => 256 * n + b.toNat) 0

/-- A one bit, zeros up to eight bytes before a block's end, and the length in bits. -/
def padding (length : Nat) : List UInt8 :=
  0x80 :: (List.replicate ((119 - length % 64) % 64) 0 ++ bigEndianBytes 8 (8 * length))

def wordsOf : List UInt8 → List UInt32
  | b₀ :: b₁ :: b₂ :: b₃ :: rest =>
    UInt32.ofNat (bigEndianValue [b₀, b₁, b₂, b₃]) :: wordsOf rest
  | _ => []

/-- Feeds the words block by block. The first argument bounds the number of blocks. -/
def absorb : Nat → Sha1State → List UInt32 → Sha1State
  | 0, s, _ => s
  | _ + 1, s, [] => s
  | count + 1, s, words => absorb count (s.block (words.take 16)) (words.drop 16)

def sha1 (message : List UInt8) : List UInt8 :=
  let words := wordsOf (message ++ padding message.length)
  let s := absorb words.length Sha1State.start words
  [s.a, s.b, s.c, s.d, s.e].flatMap fun w => bigEndianBytes 4 w.toNat

end SoapComponents.Digest
