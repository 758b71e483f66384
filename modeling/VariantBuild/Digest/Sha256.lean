/-!
# SHA-256

The digest behind object names. Only its first eight bytes are used, read as one big-endian
number; everything built on it treats that number as the value of an arbitrary function of the text.
-/

namespace VariantBuild.Digest.Sha256

/-- The first 32 bits of the fractional parts of the cube roots of the first 64 primes. -/
def roundConstants : List UInt32 :=
  [0x428a2f98, 0x71374491, 0xb5c0fbcf, 0xe9b5dba5, 0x3956c25b, 0x59f111f1, 0x923f82a4, 0xab1c5ed5,
   0xd807aa98, 0x12835b01, 0x243185be, 0x550c7dc3, 0x72be5d74, 0x80deb1fe, 0x9bdc06a7, 0xc19bf174,
   0xe49b69c1, 0xefbe4786, 0x0fc19dc6, 0x240ca1cc, 0x2de92c6f, 0x4a7484aa, 0x5cb0a9dc, 0x76f988da,
   0x983e5152, 0xa831c66d, 0xb00327c8, 0xbf597fc7, 0xc6e00bf3, 0xd5a79147, 0x06ca6351, 0x14292967,
   0x27b70a85, 0x2e1b2138, 0x4d2c6dfc, 0x53380d13, 0x650a7354, 0x766a0abb, 0x81c2c92e, 0x92722c85,
   0xa2bfe8a1, 0xa81a664b, 0xc24b8b70, 0xc76c51a3, 0xd192e819, 0xd6990624, 0xf40e3585, 0x106aa070,
   0x19a4c116, 0x1e376c08, 0x2748774c, 0x34b0bcb5, 0x391c0cb3, 0x4ed8aa4a, 0x5b9cca4f, 0x682e6ff3,
   0x748f82ee, 0x78a5636f, 0x84c87814, 0x8cc70208, 0x90befffa, 0xa4506ceb, 0xbef9a3f7, 0xc67178f2]

/-- The eight chaining words. -/
structure State where
  a : UInt32
  b : UInt32
  c : UInt32
  d : UInt32
  e : UInt32
  f : UInt32
  g : UInt32
  h : UInt32

/-- The first 32 bits of the fractional parts of the square roots of the first eight primes. -/
def State.start : State :=
  ⟨0x6a09e667, 0xbb67ae85, 0x3c6ef372, 0xa54ff53a, 0x510e527f, 0x9b05688c, 0x1f83d9ab, 0x5be0cd19⟩

/-- A word turned right by `n` bits. -/
def rotate (x n : UInt32) : UInt32 :=
  (x >>> n) ||| (x <<< (32 - n))

/-- One round on the chaining words, for one word of the schedule and its constant. -/
def State.round (s : State) (word constant : UInt32) : State :=
  let choice := (s.e &&& s.f) ^^^ (~~~s.e &&& s.g)
  let majority := (s.a &&& s.b) ^^^ (s.a &&& s.c) ^^^ (s.b &&& s.c)
  let turnedE := rotate s.e 6 ^^^ rotate s.e 11 ^^^ rotate s.e 25
  let turnedA := rotate s.a 2 ^^^ rotate s.a 13 ^^^ rotate s.a 22
  let t := s.h + turnedE + choice + constant + word
  ⟨t + turnedA + majority, s.a, s.b, s.c, s.d + t, s.e, s.f, s.g⟩

/-- The sum of two states, word by word. -/
def State.add (s t : State) : State :=
  ⟨s.a + t.a, s.b + t.b, s.c + t.c, s.d + t.d, s.e + t.e, s.f + t.f, s.g + t.g, s.h + t.h⟩

/-- The next word of the schedule, given the words so far with the latest first. -/
def nextWord (latest : List UInt32) : UInt32 :=
  let word (i : Nat) := latest.getD i 0
  let x := word 14
  let y := word 1
  let small := rotate x 7 ^^^ rotate x 18 ^^^ (x >>> 3)
  let large := rotate y 17 ^^^ rotate y 19 ^^^ (y >>> 10)
  word 15 + small + word 6 + large

/-- The sixteen words of a block, extended to sixty-four. -/
def schedule (block : List UInt32) : List UInt32 :=
  (Nat.repeat (fun latest => nextWord latest :: latest) 48 block.reverse).reverse

/-- The chaining words after one block of sixteen words. -/
def compress (s : State) (block : List UInt32) : State :=
  s.add (((schedule block).zip roundConstants).foldl (fun t (w, k) => t.round w k) s)

/-- `count` bytes of a number, most significant first. -/
def bigEndian (count n : Nat) : List UInt8 :=
  (List.range count).map fun i => UInt8.ofNat (n >>> (8 * (count - 1 - i)))

/-- The message, a one bit, zeros up to eight bytes before a multiple of sixty-four, and the
length in bits. -/
def pad (message : List UInt8) : List UInt8 :=
  let zeros := (119 - message.length % 64) % 64
  message ++ 0x80 :: List.replicate zeros 0 ++ bigEndian 8 (8 * message.length)

/-- Bytes taken four at a time as big-endian words. -/
def wordsOfBytes : List UInt8 → List UInt32
  | a :: b :: c :: d :: rest =>
    ((a.toUInt32 <<< 24) ||| (b.toUInt32 <<< 16) ||| (c.toUInt32 <<< 8) ||| d.toUInt32) ::
      wordsOfBytes rest
  | _ => []

/-- The chaining words after all whole blocks of sixteen words. -/
def absorb (s : State) (ws : List UInt32) : State :=
  if ws.length < 16 then s else absorb (compress s (ws.take 16)) (ws.drop 16)
termination_by ws.length
decreasing_by simp; omega

/-- The first eight bytes of the digest of a text's UTF-8 bytes, as a big-endian number. -/
def leadingWord (text : String) : UInt64 :=
  let s := absorb .start (wordsOfBytes (pad text.toUTF8.toList))
  (s.a.toUInt64 <<< 32) ||| s.b.toUInt64

end VariantBuild.Digest.Sha256
