import RtcBase.Library.Memory

/-! MD5 as `md5.cpp` computes it on a little-endian host. The steps are unrolled with the four
variables taking turns. The words `in` of the context are filled byte by byte, so they are kept as
memory; `none` is a copy that leaves it.
-/

namespace RtcBase.Digests

open Library

namespace Md5

-----------------------------------------------------------------------------------------
-- Transformation
-----------------------------------------------------------------------------------------

/-- The working variables of `MD5_transform`. -/
inductive Variable
  | a
  | b
  | c
  | d
deriving DecidableEq, Repr

/-- The variables that a step works on, by the names of the macro's parameters. -/
structure Names where
  w : Variable
  x : Variable
  y : Variable
  z : Variable
deriving DecidableEq, Repr

/-- The core functions `F1` to `F4`. -/
inductive Core
  | f1
  | f2
  | f3
  | f4
deriving DecidableEq, Repr

def f1 (x y z : Word 4) : Word 4 := z ^^^ (x &&& (y ^^^ z))

def f2 (x y z : Word 4) : Word 4 := f1 z x y

def f3 (x y z : Word 4) : Word 4 := x ^^^ y ^^^ z

def f4 (x y z : Word 4) : Word 4 := y ^^^ (x ||| ~~~z)

def Core.apply : Core → Word 4 → Word 4 → Word 4 → Word 4
  | .f1 => Md5.f1
  | .f2 => Md5.f2
  | .f3 => Md5.f3
  | .f4 => Md5.f4

/-- One use of the macro `MD5STEP`: the core function, the variables, the index into `in`, the
constant added to that word and the shift.
-/
structure Step where
  core : Core
  names : Names
  index : Nat
  constant : Word 4
  s : Nat
deriving DecidableEq, Repr

/-- The words `in`, as the host reads them from memory. -/
def word (memory : List Byte) (i : Nat) : Word 4 :=
  (Layout.littleEndian 4).gather (window memory (4 * i) 4)

/-- The values of the working variables. -/
structure Working where
  value : Variable → Word 4

/-- The macro `MD5STEP`. -/
def Step.run (memory : List Byte) (working : Working) (step : Step) : Working :=
  let names := step.names
  let value := working.value
  let data := word memory step.index + step.constant
  let w := value names.w + (step.core.apply (value names.x) (value names.y) (value names.z) + data)
  let w := (w <<< step.s) ||| (w >>> (32 - step.s))
  ⟨Function.update value names.w (w + value names.x)⟩

open Variable in
/-- The unrolled steps of `MD5_transform`. -/
def steps : List Step :=
  [⟨.f1, ⟨a, b, c, d⟩, 0, 0xd76aa478, 7⟩, ⟨.f1, ⟨d, a, b, c⟩, 1, 0xe8c7b756, 12⟩,
    ⟨.f1, ⟨c, d, a, b⟩, 2, 0x242070db, 17⟩, ⟨.f1, ⟨b, c, d, a⟩, 3, 0xc1bdceee, 22⟩,
    ⟨.f1, ⟨a, b, c, d⟩, 4, 0xf57c0faf, 7⟩, ⟨.f1, ⟨d, a, b, c⟩, 5, 0x4787c62a, 12⟩,
    ⟨.f1, ⟨c, d, a, b⟩, 6, 0xa8304613, 17⟩, ⟨.f1, ⟨b, c, d, a⟩, 7, 0xfd469501, 22⟩,
    ⟨.f1, ⟨a, b, c, d⟩, 8, 0x698098d8, 7⟩, ⟨.f1, ⟨d, a, b, c⟩, 9, 0x8b44f7af, 12⟩,
    ⟨.f1, ⟨c, d, a, b⟩, 10, 0xffff5bb1, 17⟩, ⟨.f1, ⟨b, c, d, a⟩, 11, 0x895cd7be, 22⟩,
    ⟨.f1, ⟨a, b, c, d⟩, 12, 0x6b901122, 7⟩, ⟨.f1, ⟨d, a, b, c⟩, 13, 0xfd987193, 12⟩,
    ⟨.f1, ⟨c, d, a, b⟩, 14, 0xa679438e, 17⟩, ⟨.f1, ⟨b, c, d, a⟩, 15, 0x49b40821, 22⟩,
    ⟨.f2, ⟨a, b, c, d⟩, 1, 0xf61e2562, 5⟩, ⟨.f2, ⟨d, a, b, c⟩, 6, 0xc040b340, 9⟩,
    ⟨.f2, ⟨c, d, a, b⟩, 11, 0x265e5a51, 14⟩, ⟨.f2, ⟨b, c, d, a⟩, 0, 0xe9b6c7aa, 20⟩,
    ⟨.f2, ⟨a, b, c, d⟩, 5, 0xd62f105d, 5⟩, ⟨.f2, ⟨d, a, b, c⟩, 10, 0x02441453, 9⟩,
    ⟨.f2, ⟨c, d, a, b⟩, 15, 0xd8a1e681, 14⟩, ⟨.f2, ⟨b, c, d, a⟩, 4, 0xe7d3fbc8, 20⟩,
    ⟨.f2, ⟨a, b, c, d⟩, 9, 0x21e1cde6, 5⟩, ⟨.f2, ⟨d, a, b, c⟩, 14, 0xc33707d6, 9⟩,
    ⟨.f2, ⟨c, d, a, b⟩, 3, 0xf4d50d87, 14⟩, ⟨.f2, ⟨b, c, d, a⟩, 8, 0x455a14ed, 20⟩,
    ⟨.f2, ⟨a, b, c, d⟩, 13, 0xa9e3e905, 5⟩, ⟨.f2, ⟨d, a, b, c⟩, 2, 0xfcefa3f8, 9⟩,
    ⟨.f2, ⟨c, d, a, b⟩, 7, 0x676f02d9, 14⟩, ⟨.f2, ⟨b, c, d, a⟩, 12, 0x8d2a4c8a, 20⟩,
    ⟨.f3, ⟨a, b, c, d⟩, 5, 0xfffa3942, 4⟩, ⟨.f3, ⟨d, a, b, c⟩, 8, 0x8771f681, 11⟩,
    ⟨.f3, ⟨c, d, a, b⟩, 11, 0x6d9d6122, 16⟩, ⟨.f3, ⟨b, c, d, a⟩, 14, 0xfde5380c, 23⟩,
    ⟨.f3, ⟨a, b, c, d⟩, 1, 0xa4beea44, 4⟩, ⟨.f3, ⟨d, a, b, c⟩, 4, 0x4bdecfa9, 11⟩,
    ⟨.f3, ⟨c, d, a, b⟩, 7, 0xf6bb4b60, 16⟩, ⟨.f3, ⟨b, c, d, a⟩, 10, 0xbebfbc70, 23⟩,
    ⟨.f3, ⟨a, b, c, d⟩, 13, 0x289b7ec6, 4⟩, ⟨.f3, ⟨d, a, b, c⟩, 0, 0xeaa127fa, 11⟩,
    ⟨.f3, ⟨c, d, a, b⟩, 3, 0xd4ef3085, 16⟩, ⟨.f3, ⟨b, c, d, a⟩, 6, 0x04881d05, 23⟩,
    ⟨.f3, ⟨a, b, c, d⟩, 9, 0xd9d4d039, 4⟩, ⟨.f3, ⟨d, a, b, c⟩, 12, 0xe6db99e5, 11⟩,
    ⟨.f3, ⟨c, d, a, b⟩, 15, 0x1fa27cf8, 16⟩, ⟨.f3, ⟨b, c, d, a⟩, 2, 0xc4ac5665, 23⟩,
    ⟨.f4, ⟨a, b, c, d⟩, 0, 0xf4292244, 6⟩, ⟨.f4, ⟨d, a, b, c⟩, 7, 0x432aff97, 10⟩,
    ⟨.f4, ⟨c, d, a, b⟩, 14, 0xab9423a7, 15⟩, ⟨.f4, ⟨b, c, d, a⟩, 5, 0xfc93a039, 21⟩,
    ⟨.f4, ⟨a, b, c, d⟩, 12, 0x655b59c3, 6⟩, ⟨.f4, ⟨d, a, b, c⟩, 3, 0x8f0ccc92, 10⟩,
    ⟨.f4, ⟨c, d, a, b⟩, 10, 0xffeff47d, 15⟩, ⟨.f4, ⟨b, c, d, a⟩, 1, 0x85845dd1, 21⟩,
    ⟨.f4, ⟨a, b, c, d⟩, 8, 0x6fa87e4f, 6⟩, ⟨.f4, ⟨d, a, b, c⟩, 15, 0xfe2ce6e0, 10⟩,
    ⟨.f4, ⟨c, d, a, b⟩, 6, 0xa3014314, 15⟩, ⟨.f4, ⟨b, c, d, a⟩, 13, 0x4e0811a1, 21⟩,
    ⟨.f4, ⟨a, b, c, d⟩, 4, 0xf7537e82, 6⟩, ⟨.f4, ⟨d, a, b, c⟩, 11, 0xbd3af235, 10⟩,
    ⟨.f4, ⟨c, d, a, b⟩, 2, 0x2ad7d2bb, 15⟩, ⟨.f4, ⟨b, c, d, a⟩, 9, 0xeb86d391, 21⟩]

/-- The four words of a `buf`. -/
abbrev Buf := Vector (Word 4) 4

/-- The working variables start as copies of `buf`. -/
def Buf.value (buf : Buf) : Variable → Word 4
  | .a => buf[0]
  | .b => buf[1]
  | .c => buf[2]
  | .d => buf[3]

/-- `MD5_transform` of `buf` by the 64 bytes of memory of `in`. -/
def transform (buf : Buf) (memory : List Byte) : Buf :=
  let working := steps.foldl (Step.run memory) ⟨buf.value⟩
  #v[buf[0] + working.value .a, buf[1] + working.value .b, buf[2] + working.value .c,
    buf[3] + working.value .d]

-----------------------------------------------------------------------------------------
-- Context
-----------------------------------------------------------------------------------------

/-- `byte_reverse` of the first `len` words in memory: each is replaced by its little-endian
reading. The macro that would leave it out on a little-endian host is not defined anywhere.
-/
def byteReverse (memory : List Byte) (len : Nat) : List Byte :=
  ((List.range len).flatMap fun i => (Layout.littleEndian 4).spread (word memory i))
    ++ memory.drop (4 * len)

/-- The fields of `MD5Context`, with the memory of the words `in`. -/
structure Context where
  buf : Buf
  bits0 : Word 4
  bits1 : Word 4
  in_ : List Byte
deriving DecidableEq, Repr

namespace Context

/-- `MD5_init`, which leaves `in` as it is. -/
def init (ctx : Context) : Context :=
  { ctx with
    buf := #v[0x67452301, 0xefcdab89, 0x98badcfe, 0x10325476]
    bits0 := 0
    bits1 := 0 }

/-- Update the number of bits for `len` more bytes, with the carry. -/
def countBits (ctx : Context) (len : Nat) : Context :=
  let t := ctx.bits0
  let bits0 := t + ((BitVec.ofNat _ len : Word 4) <<< 3)
  let bits1 := if bits0 < t then ctx.bits1 + 1 else ctx.bits1
  { ctx with bits0 := bits0, bits1 := bits1 + BitVec.ofNat _ (len >>> 29) }

/-- The end of `MD5_update`: whole chunks of 64 bytes are copied to `in` and taken in, and what
remains is copied to `in`.
-/
def updateChunks (ctx : Context) (buf : List Byte) : Option Context :=
  if buf.length ≥ 64 then do
    let copied ← writeMemory ctx.in_ 0 (buf.take 64)
    let in_ := byteReverse copied 16
    updateChunks { ctx with buf := transform ctx.buf in_, in_ := in_ } (buf.drop 64)
  else do
    return { ctx with in_ := ← writeMemory ctx.in_ 0 buf }
termination_by buf.length

/-- `MD5_update`. A chunk that was begun is completed first. -/
def update (ctx : Context) (buf : List Byte) : Option Context :=
  let counted := ctx.countBits buf.length
  let t := ((ctx.bits0 >>> 3) &&& 0x3f).toNat
  if t ≠ 0 then
    if buf.length < 64 - t then do
      return { counted with in_ := ← writeMemory ctx.in_ t buf }
    else do
      let copied ← writeMemory ctx.in_ t (buf.take (64 - t))
      let in_ := byteReverse copied 16
      updateChunks { counted with buf := transform ctx.buf in_, in_ := in_ } (buf.drop (64 - t))
  else updateChunks counted buf

/-- `MD5_final`, with the digest that it stores. -/
def final (ctx : Context) : Option (Context × List Byte) := do
  let count := ((ctx.bits0 >>> 3) &&& 0x3F).toNat
  let marked ← writeMemory ctx.in_ count [0x80]
  let p := count + 1
  let count := 64 - 1 - count
  let (buf, padded) ←
    if count < 8 then do
      let filled ← writeMemory marked p (List.replicate count 0)
      let first := byteReverse filled 16
      let second ← writeMemory first 0 (List.replicate 56 0)
      pure (transform ctx.buf first, second)
    else do
      let filled ← writeMemory marked p (List.replicate (count - 8) 0)
      pure (ctx.buf, filled)
  let reversed := byteReverse padded 14
  let low ← writeMemory reversed (4 * 14) ((Layout.littleEndian 4).spread ctx.bits0)
  let complete ← writeMemory low (4 * 15) ((Layout.littleEndian 4).spread ctx.bits1)
  let buf := transform buf complete
  let digest := byteReverse (buf.toList.flatMap (Layout.littleEndian 4).spread) 4
  return (⟨.replicate 4 0, 0, 0, List.replicate 64 0⟩, digest)

end Context

end Md5

end RtcBase.Digests
