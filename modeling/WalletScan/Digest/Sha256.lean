/-!
# SHA-256, its hexadecimal text and its keyed form

Record identifiers, contract identifiers and webhook signatures are all digests of a UTF-8 text.

* `Sha256.digest` — the 32 bytes of FIPS 180-4 for a message of bytes: the message is padded to
  whole blocks of 64 bytes, and each block updates the chaining state in 64 rounds.
* `Sha256.hexOfText` — the digest of a text's UTF-8 bytes, as 64 lower-case hexadecimal digits.
* `Hmac.digest` — the HMAC of RFC 2104 over SHA-256: the key fills one block, is mixed with an inner
  and an outer pad, and the outer digest is taken over the inner one.
-/

set_option autoImplicit false

namespace WalletScan

/-- The lower-case hexadecimal digit of a number below sixteen. -/
def hexDigit (n : Nat) : Char :=
  if n < 10 then Char.ofNat ('0'.toNat + n) else Char.ofNat ('a'.toNat + (n - 10))

/-- Two digits for each byte, the high half first. -/
def hexOfBytes (bytes : List UInt8) : String :=
  String.ofList (bytes.flatMap fun b => [hexDigit (b.toNat / 16), hexDigit (b.toNat % 16)])

namespace Sha256

/-- The first 32 bits of the fractional parts of the cube roots of the first 64 primes. -/
def roundConstants : List UInt32 :=
  [0x428a2f98, 0x71374491, 0xb5c0fbcf, 0xe9b5dba5, 0x3956c25b, 0x59f111f1, 0x923f82a4, 0xab1c5ed5,
   0xd807aa98, 0x12835b01, 0x243185be, 0x550c7dc3, 0x72be5d74, 0x80deb1fe, 0x9bdc06a7, 0xc19bf174,
   0xe49b69c1, 0xefbe4786, 0x0fc19dc6, 0x240ca1cc, 0x2de92c6f, 0x4a7484aa, 0x5cb0a9dc, 0x76f988da,
   0x983e5152, 0xa831c66d, 0xb00327c8, 0xbf597fc7, 0xc6e00bf3, 0xd5a79147, 0x06ca6351, 0x14292967,
   0x27b70a85, 0x2e1b2138, 0x4d2c6dfc, 0x53380d13, 0x650a7354, 0x766a0abb, 0x81c2c92e, 0x92722c85,
   0xa2bfe8a1, 0xa81a664b, 0xc24b8b70, 0xc76c51a3, 0xd192e819, 0xd6990624, 0xf40e3585, 0x106aa070,
   0x19a4c116, 0x1e376c08, 0x2748774c, 0x34b0bcb5, 0x391c0cb3, 0x4ed8aa4a, 0x5b9cca4f, 0x682e6ff3,
   0x748f82ee, 0x78a5636f, 0x84c87814, 0x8cc70208, 0x90befffa, 0xa4506ceb, 0xbef9a3f7, 0xc67178f2]

/-- The chaining state: eight words. -/
structure State where
  a : UInt32
  b : UInt32
  c : UInt32
  d : UInt32
  e : UInt32
  f : UInt32
  g : UInt32
  h : UInt32
deriving DecidableEq, Repr

/-- The state before the first block. -/
def State.initial : State :=
  ⟨0x6a09e667, 0xbb67ae85, 0x3c6ef372, 0xa54ff53a, 0x510e527f, 0x9b05688c, 0x1f83d9ab, 0x5be0cd19⟩

/-- Rotation to the right by `n` bits, for `0 < n < 32`. -/
def rotate (x n : UInt32) : UInt32 := (x >>> n) ||| (x <<< (32 - n))

/-- The eight state words in order. -/
def State.words (s : State) : List UInt32 := [s.a, s.b, s.c, s.d, s.e, s.f, s.g, s.h]

/-- One round with its schedule word and its constant. -/
def State.round (s : State) (w k : UInt32) : State :=
  let s1 := rotate s.e 6 ^^^ rotate s.e 11 ^^^ rotate s.e 25
  let choice := (s.e &&& s.f) ^^^ ((~~~ s.e) &&& s.g)
  let t1 := s.h + s1 + choice + k + w
  let s0 := rotate s.a 2 ^^^ rotate s.a 13 ^^^ rotate s.a 22
  let majority := (s.a &&& s.b) ^^^ (s.a &&& s.c) ^^^ (s.b &&& s.c)
  ⟨t1 + (s0 + majority), s.a, s.b, s.c, s.d + t1, s.e, s.f, s.g⟩

/-- Word-wise sum of two states. -/
def State.add (s t : State) : State :=
  ⟨s.a + t.a, s.b + t.b, s.c + t.c, s.d + t.d, s.e + t.e, s.f + t.f, s.g + t.g, s.h + t.h⟩

/-- The schedule word that follows the given ones, which are listed latest first. -/
def nextWord (latest : List UInt32) : UInt32 :=
  let w2 := latest.getD 1 0
  let w15 := latest.getD 14 0
  (rotate w2 17 ^^^ rotate w2 19 ^^^ (w2 >>> 10)) + latest.getD 6 0
    + (rotate w15 7 ^^^ rotate w15 18 ^^^ (w15 >>> 3)) + latest.getD 15 0

/-- Adds `n` words to a schedule that is listed latest first. -/
def extend : Nat → List UInt32 → List UInt32
  | 0, latest => latest
  | n + 1, latest => extend n (nextWord latest :: latest)

/-- The sixteen big-endian words of a block, in order; missing bytes count as zero. -/
def blockWords : List UInt8 → List UInt32
  | b0 :: b1 :: b2 :: b3 :: rest =>
    ((b0.toUInt32 <<< 24) ||| (b1.toUInt32 <<< 16) ||| (b2.toUInt32 <<< 8) ||| b3.toUInt32)
      :: blockWords rest
  | _ => []

/-- The state after one block of 64 bytes. -/
def compress (s : State) (block : List UInt8) : State :=
  let schedule := (extend 48 (blockWords block).reverse).reverse
  s.add ((schedule.zip roundConstants).foldl (fun t wk => t.round wk.1 wk.2) s)

/-- The last `width` bytes of a number, big-endian. -/
def bigEndian : Nat → Nat → List UInt8
  | 0, _ => []
  | width + 1, n => bigEndian width (n / 256) ++ [UInt8.ofNat (n % 256)]

/-- A message, the bit 1, zeros up to 8 bytes short of a whole block, and the length in bits. -/
def pad (message : List UInt8) : List UInt8 :=
  message ++ 0x80 :: (List.replicate ((119 - message.length % 64) % 64) 0
    ++ bigEndian 8 (message.length * 8))

/-- Compresses `blocks` blocks from the front of the bytes. -/
def compressAll : Nat → List UInt8 → State → State
  | 0, _, s => s
  | blocks + 1, bytes, s => compressAll blocks (bytes.drop 64) (compress s (bytes.take 64))

/-- The digest of a message. -/
def digest (message : List UInt8) : List UInt8 :=
  let padded := pad message
  (compressAll (padded.length / 64) padded State.initial).words.flatMap fun w => bigEndian 4 w.toNat

/-- The digest of a text's UTF-8 bytes in hexadecimal. -/
def hexOfText (text : String) : String := hexOfBytes (digest text.toUTF8.toList)

end Sha256

/-! ## Keyed digests -/

namespace Hmac

/-- The key as one block: a key longer than a block is replaced by its digest, then zeros follow. -/
def keyBlock (key : List UInt8) : List UInt8 :=
  let short := if key.length > 64 then Sha256.digest key else key
  short ++ List.replicate (64 - short.length) 0

/-- The key block with every byte mixed with the same pad byte. -/
def padded (key : List UInt8) (pad : UInt8) : List UInt8 := (keyBlock key).map (· ^^^ pad)

/-- The keyed digest of a message. -/
def digest (key message : List UInt8) : List UInt8 :=
  Sha256.digest (padded key 0x5c ++ Sha256.digest (padded key 0x36 ++ message))

/-- The keyed digest of two texts' UTF-8 bytes in hexadecimal. -/
def hexOfText (key message : String) : String :=
  hexOfBytes (digest key.toUTF8.toList message.toUTF8.toList)

end Hmac

end WalletScan
