import RtcBase.Library.Blocks
import RtcBase.Library.Memory

/-! The digests as their standards define them: SHA-1 of FIPS 180, MD5 of RFC 1321 and the keyed
digest HMAC of RFC 2104. Both digests pad the message to whole blocks of 64 bytes and take in the
blocks one after the other.
-/

namespace RtcBase.Digests

open Library

/-- The bytes of zero padding after the byte `0x80` that leave room for a length of eight bytes. -/
def paddingZeros (length : Nat) : Nat := (119 - length % 64) % 64

/-- The padded message, whose length in bits is stored in eight bytes. -/
def padded (layout : Layout 8) (message : List Byte) : List Byte :=
  message
    ++ 0x80 :: List.replicate (paddingZeros message.length) 0
    ++ layout.spread (BitVec.ofNat _ (8 * message.length))

-----------------------------------------------------------------------------------------
-- SHA-1
-----------------------------------------------------------------------------------------

namespace Fips180

/-- The five working variables. -/
structure Variables where
  a : Word 4
  b : Word 4
  c : Word 4
  d : Word 4
  e : Word 4
  deriving DecidableEq, Repr

def ch (x y z : Word 4) : Word 4 := (x &&& y) ^^^ (~~~x &&& z)

def parity (x y z : Word 4) : Word 4 := x ^^^ y ^^^ z

def maj (x y z : Word 4) : Word 4 := (x &&& y) ^^^ (x &&& z) ^^^ (y &&& z)

/-- The logical function of step `t`. -/
def logical (t : Nat) : Word 4 → Word 4 → Word 4 → Word 4 :=
  if t < 20 then ch else if t < 40 then parity else if t < 60 then maj else parity

/-- The constant of step `t`. -/
def constant (t : Nat) : Word 4 :=
  if t < 20 then 0x5a827999
  else if t < 40 then 0x6ed9eba1
  else if t < 60 then 0x8f1bbcdc
  else 0xca62c1d6

/-- Word `t` of a block, most significant byte first. -/
def blockWord (block : List Byte) (t : Nat) : Word 4 :=
  (Layout.bigEndian 4).gather (window block (4 * t) 4)

/-- The first words of the message schedule of a block. -/
def schedule (block : List Byte) : Nat → List (Word 4)
  | 0 => []
  | t + 1 =>
      let earlier := schedule block t
      let w (s : Nat) : Word 4 := earlier.getD s 0
      earlier
        ++ [if t < 16 then blockWord block t
            else (w (t - 3) ^^^ w (t - 8) ^^^ w (t - 14) ^^^ w (t - 16)).rotateLeft 1]

/-- Step `t`, with the word of the schedule for it. -/
def step (t : Nat) (word : Word 4) (v : Variables) : Variables where
  a := v.a.rotateLeft 5 + logical t v.b v.c v.d + v.e + constant t + word
  b := v.a
  c := v.b.rotateLeft 30
  d := v.c
  e := v.d

/-- The variables after the first `n` steps over a schedule. -/
def steps (words : List (Word 4)) (start : Variables) : Nat → Variables
  | 0 => start
  | n + 1 => step n (words.getD n 0) (steps words start n)

/-- Take in one block. -/
def compress (hash : Variables) (block : List Byte) : Variables :=
  let v := steps (schedule block 80) hash 80
  ⟨hash.a + v.a, hash.b + v.b, hash.c + v.c, hash.d + v.d, hash.e + v.e⟩

def initialHash : Variables := ⟨0x67452301, 0xefcdab89, 0x98badcfe, 0x10325476, 0xc3d2e1f0⟩

/-- The digest that a hash value is written as. -/
def output (hash : Variables) : List Byte :=
  [hash.a, hash.b, hash.c, hash.d, hash.e].flatMap (Layout.bigEndian 4).spread

/-- SHA-1. -/
def sha1 (message : List Byte) : List Byte :=
  output (absorb 64 compress initialHash (padded (.bigEndian 8) message))

theorem length_sha1 (message : List Byte) : (sha1 message).length = 20 := by
  simp [sha1, output, List.flatMap_cons]

/-- The digest of `abc`, from the standard's first example. -/
example : sha1 [0x61, 0x62, 0x63]
    = [0xa9, 0x99, 0x3e, 0x36, 0x47, 0x06, 0x81, 0x6a, 0xba, 0x3e, 0x25, 0x71, 0x78, 0x50, 0xc2,
      0x6c, 0x9c, 0xd0, 0xd8, 0x9d] := by
  decide +kernel

end Fips180

-----------------------------------------------------------------------------------------
-- MD5
-----------------------------------------------------------------------------------------

namespace Rfc1321

/-- The four registers. -/
structure Variables where
  a : Word 4
  b : Word 4
  c : Word 4
  d : Word 4
  deriving DecidableEq, Repr

def f (x y z : Word 4) : Word 4 := (x &&& y) ||| (~~~x &&& z)

def g (x y z : Word 4) : Word 4 := (x &&& z) ||| (y &&& ~~~z)

def h (x y z : Word 4) : Word 4 := x ^^^ y ^^^ z

def i (x y z : Word 4) : Word 4 := y ^^^ (x ||| ~~~z)

/-- The auxiliary function of operation `t`, sixteen operations for each round. -/
def auxiliary (t : Nat) : Word 4 → Word 4 → Word 4 → Word 4 :=
  if t < 16 then f else if t < 32 then g else if t < 48 then h else i

/-- The word of the block that operation `t` adds. -/
def wordIndex (t : Nat) : Nat :=
  if t < 16 then t
  else if t < 32 then (5 * t + 1) % 16
  else if t < 48 then (3 * t + 5) % 16
  else 7 * t % 16

/-- The distances by which each round rotates, in turn. -/
def shifts : List (List Nat) :=
  [[7, 12, 17, 22], [5, 9, 14, 20], [4, 11, 16, 23], [6, 10, 15, 21]]

/-- The distance by which operation `t` rotates. -/
def shift (t : Nat) : Nat := (shifts.getD (t / 16) []).getD (t % 4) 0

/-- The table `T`, whose element `i`, counted from one, is the integer part of `2^32` times the
absolute value of the sine of `i`.
-/
def sineTable : List (Word 4) :=
  [0xd76aa478, 0xe8c7b756, 0x242070db, 0xc1bdceee, 0xf57c0faf, 0x4787c62a,
    0xa8304613, 0xfd469501, 0x698098d8, 0x8b44f7af, 0xffff5bb1, 0x895cd7be,
    0x6b901122, 0xfd987193, 0xa679438e, 0x49b40821, 0xf61e2562, 0xc040b340,
    0x265e5a51, 0xe9b6c7aa, 0xd62f105d, 0x02441453, 0xd8a1e681, 0xe7d3fbc8,
    0x21e1cde6, 0xc33707d6, 0xf4d50d87, 0x455a14ed, 0xa9e3e905, 0xfcefa3f8,
    0x676f02d9, 0x8d2a4c8a, 0xfffa3942, 0x8771f681, 0x6d9d6122, 0xfde5380c,
    0xa4beea44, 0x4bdecfa9, 0xf6bb4b60, 0xbebfbc70, 0x289b7ec6, 0xeaa127fa,
    0xd4ef3085, 0x04881d05, 0xd9d4d039, 0xe6db99e5, 0x1fa27cf8, 0xc4ac5665,
    0xf4292244, 0x432aff97, 0xab9423a7, 0xfc93a039, 0x655b59c3, 0x8f0ccc92,
    0xffeff47d, 0x85845dd1, 0x6fa87e4f, 0xfe2ce6e0, 0xa3014314, 0x4e0811a1,
    0xf7537e82, 0xbd3af235, 0x2ad7d2bb, 0xeb86d391]

/-- Word `k` of a block, least significant byte first. -/
def blockWord (block : List Byte) (k : Nat) : Word 4 :=
  (Layout.littleEndian 4).gather (window block (4 * k) 4)

/-- Operation `t`. The registers change places for the next operation. -/
def step (block : List Byte) (t : Nat) (v : Variables) : Variables where
  a := v.d
  b :=
    v.b
      + (v.a + auxiliary t v.b v.c v.d + blockWord block (wordIndex t)
          + sineTable.getD t 0).rotateLeft (shift t)
  c := v.b
  d := v.c

/-- The registers after the first `n` operations. -/
def steps (block : List Byte) (start : Variables) : Nat → Variables
  | 0 => start
  | n + 1 => step block n (steps block start n)

/-- Take in one block. -/
def compress (hash : Variables) (block : List Byte) : Variables :=
  let v := steps block hash 64
  ⟨hash.a + v.a, hash.b + v.b, hash.c + v.c, hash.d + v.d⟩

def initialHash : Variables := ⟨0x67452301, 0xefcdab89, 0x98badcfe, 0x10325476⟩

/-- The digest that the registers are written as. -/
def output (hash : Variables) : List Byte :=
  [hash.a, hash.b, hash.c, hash.d].flatMap (Layout.littleEndian 4).spread

/-- MD5. -/
def md5 (message : List Byte) : List Byte :=
  output (absorb 64 compress initialHash (padded (.littleEndian 8) message))

theorem length_md5 (message : List Byte) : (md5 message).length = 16 := by
  simp [md5, output, List.flatMap_cons]

/-- The digest of `abc`, from the test suite of the memo. -/
example : md5 [0x61, 0x62, 0x63]
    = [0x90, 0x01, 0x50, 0x98, 0x3c, 0xd2, 0x4f, 0xb0, 0xd6, 0x96, 0x3f, 0x7d, 0x28, 0xe1, 0x7f,
      0x72] := by
  decide +kernel

end Rfc1321

-----------------------------------------------------------------------------------------
-- HMAC
-----------------------------------------------------------------------------------------

namespace Rfc2104

/-- The key in a block of 64 bytes: a longer one is hashed first, and zeros fill the block. -/
def blockKey (hash : List Byte → List Byte) (key : List Byte) : List Byte :=
  let short := if key.length > 64 then hash key else key
  short ++ List.replicate (64 - short.length) 0

/-- HMAC over a digest with blocks of 64 bytes. -/
def hmac (hash : List Byte → List Byte) (key text : List Byte) : List Byte :=
  let k := blockKey hash key
  hash (k.map (0x5c ^^^ ·) ++ hash (k.map (0x36 ^^^ ·) ++ text))

end Rfc2104

end RtcBase.Digests
