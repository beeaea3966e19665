/-!
# Gatehouse.Crypto.Sha256 — the hash function SHA-256 and its keyed form

FIPS 180-4 in the layers of the standard: padding, blocks, the message schedule, the compression of
one block, and the digest as a fold over the blocks.  `hmac` is the keyed hash of RFC 2104 over it.
Bytes and words are lists of `UInt8` and `UInt32`.

The message schedule is built with the newest word in front, since each word is made of the last
sixteen; it is turned around once it has its 64 words.  A digest is computed only to be compared
with another or to be written down, and nothing is assumed of it anywhere but that it is a function
of the key and of the message: that nobody else can compute it is no property of the program.
-/

namespace Gatehouse.Crypto

/-! ## Words -/

/-- The first 32 bits of the fractional parts of the cube roots of the first 64 primes. -/
def roundConstants : List UInt32 :=
  [0x428a2f98, 0x71374491, 0xb5c0fbcf, 0xe9b5dba5, 0x3956c25b, 0x59f111f1, 0x923f82a4, 0xab1c5ed5,
   0xd807aa98, 0x12835b01, 0x243185be, 0x550c7dc3, 0x72be5d74, 0x80deb1fe, 0x9bdc06a7, 0xc19bf174,
   0xe49b69c1, 0xefbe4786, 0x0fc19dc6, 0x240ca1cc, 0x2de92c6f, 0x4a7484aa, 0x5cb0a9dc, 0x76f988da,
   0x983e5152, 0xa831c66d, 0xb00327c8, 0xbf597fc7, 0xc6e00bf3, 0xd5a79147, 0x06ca6351, 0x14292967,
   0x27b70a85, 0x2e1b2138, 0x4d2c6dfc, 0x53380d13, 0x650a7354, 0x766a0abb, 0x81c2c92e, 0x92722c85,
   0xa2bfe8a1, 0xa81a664b, 0xc24b8b70, 0xc76c51a3, 0xd192e819, 0xd6990624, 0xf40e3585, 0x106aa070,
   0x19a4c116, 0x1e376c08, 0x2748774c, 0x34b0bcb5, 0x391c0cb3, 0x4ed8aa4a, 0x5b9cca4f, 0x682e6ff3,
   0x748f82ee, 0x78a5636f, 0x84c87814, 0x8cc70208, 0x90befffa, 0xa4506ceb, 0xbef9a3f7, 0xc67178f2]

/-- Rotates a word to the right. -/
def rotateRight (x n : UInt32) : UInt32 := (x >>> n) ||| (x <<< (32 - n))

/-- The word of four bytes, most significant byte first. -/
def wordOfBytes (a b c d : UInt8) : UInt32 :=
  (a.toUInt32 <<< 24) ||| (b.toUInt32 <<< 16) ||| (c.toUInt32 <<< 8) ||| d.toUInt32

/-- The four bytes of a word, most significant byte first. -/
def bytesOfWord (w : UInt32) : List UInt8 :=
  [(w >>> 24).toUInt8, (w >>> 16).toUInt8, (w >>> 8).toUInt8, w.toUInt8]

/-- The words of a row of bytes; up to three bytes at the end that fill no word are dropped. -/
def wordsOfBytes : List UInt8 → List UInt32
  | a :: b :: c :: d :: rest => wordOfBytes a b c d :: wordsOfBytes rest
  | _ => []

/-! ## Padding and blocks -/

/-- The length of a message in bits, in eight bytes. -/
def lengthBytes (n : Nat) : List UInt8 :=
  [56, 48, 40, 32, 24, 16, 8, 0].map fun shift => UInt8.ofNat ((8 * n) >>> shift)

/-- What is put after a message of `n` bytes to fill its last block: one bit, zeros, and the length
of the message.  At least nine bytes are put, so a message that nearly fills its block gets another.
-/
def padding (n : Nat) : List UInt8 :=
  0x80 :: List.replicate ((119 - n % 64) % 64) 0 ++ lengthBytes n

/-- The blocks of 16 words. -/
def blocks (words : List UInt32) : Nat → List (List UInt32)
  | 0 => []
  | count + 1 => words.take 16 :: blocks (words.drop 16) count

/-! ## The compression of a block -/

/-- The eight working words. -/
structure Working where
  a : UInt32
  b : UInt32
  c : UInt32
  d : UInt32
  e : UInt32
  f : UInt32
  g : UInt32
  h : UInt32
deriving DecidableEq, Repr

/-- The first 32 bits of the fractional parts of the square roots of the first eight primes. -/
def initialWorking : Working :=
  ⟨0x6a09e667, 0xbb67ae85, 0x3c6ef372, 0xa54ff53a, 0x510e527f, 0x9b05688c, 0x1f83d9ab, 0x5be0cd19⟩

/-- The next word of the message schedule, from the last sixteen, newest first. -/
def nextScheduled (recent : List UInt32) : UInt32 :=
  let word (i : Nat) := recent.getD (i - 1) 0
  let w15 := word 15
  let w2 := word 2
  let small0 := rotateRight w15 7 ^^^ rotateRight w15 18 ^^^ (w15 >>> 3)
  let small1 := rotateRight w2 17 ^^^ rotateRight w2 19 ^^^ (w2 >>> 10)
  word 16 + small0 + word 7 + small1

/-- The message schedule, newest word first, extended by some words. -/
def extendSchedule (newestFirst : List UInt32) : Nat → List UInt32
  | 0 => newestFirst
  | count + 1 => extendSchedule (nextScheduled newestFirst :: newestFirst) count

/-- The 64 words of the message schedule of a block. -/
def schedule (block : List UInt32) : List UInt32 := (extendSchedule block.reverse 48).reverse

/-- One round, with a constant and a word of the schedule. -/
def round (s : Working) (k w : UInt32) : Working :=
  let big1 := rotateRight s.e 6 ^^^ rotateRight s.e 11 ^^^ rotateRight s.e 25
  let choice := (s.e &&& s.f) ^^^ ((~~~s.e) &&& s.g)
  let t1 := s.h + big1 + choice + k + w
  let big0 := rotateRight s.a 2 ^^^ rotateRight s.a 13 ^^^ rotateRight s.a 22
  let majority := (s.a &&& s.b) ^^^ (s.a &&& s.c) ^^^ (s.b &&& s.c)
  ⟨t1 + (big0 + majority), s.a, s.b, s.c, s.d + t1, s.e, s.f, s.g⟩

/-- Adds two rows of working words. -/
def Working.add (s t : Working) : Working :=
  ⟨s.a + t.a, s.b + t.b, s.c + t.c, s.d + t.d, s.e + t.e, s.f + t.f, s.g + t.g, s.h + t.h⟩

/-- The working words after a block. -/
def compress (s : Working) (block : List UInt32) : Working :=
  s.add ((roundConstants.zip (schedule block)).foldl (fun s kw => round s kw.1 kw.2) s)

/-! ## Digests -/

/-- The bytes of the working words. -/
def Working.toBytes (s : Working) : List UInt8 :=
  [s.a, s.b, s.c, s.d, s.e, s.f, s.g, s.h].flatMap bytesOfWord

/-- The 32 bytes of the SHA-256 digest of a message. -/
def sha256 (message : List UInt8) : List UInt8 :=
  let words := wordsOfBytes (message ++ padding message.length)
  ((blocks words (words.length / 16)).foldl compress initialWorking).toBytes

/-- A key as one block of 64 bytes: a longer one is hashed first. -/
def keyBlock (key : List UInt8) : List UInt8 :=
  let short := if 64 < key.length then sha256 key else key
  short ++ List.replicate (64 - short.length) 0

/-- The keyed hash of a message: that of the message behind the key, hashed again behind the key,
with a different mask each time. -/
def hmac (key message : List UInt8) : List UInt8 :=
  let block := keyBlock key
  sha256 (block.map (· ^^^ 0x5c) ++ sha256 (block.map (· ^^^ 0x36) ++ message))

end Gatehouse.Crypto
