import RtcBase.Library.Memory

/-! SHA-1 as `sha1.cpp` computes it on a little-endian host. A block is expanded in the place of its
sixteen words, the rounds are unrolled with the working variables taking turns, and a message is
buffered between updates. As for the byte buffers, `none` is a copy that leaves its memory.
-/

namespace RtcBase.Digests

open Library

namespace Sha1

/-- The macro `rol`. -/
def rol (value : Word 4) (bits : Nat) : Word 4 := (value <<< bits) ||| (value >>> (32 - bits))

-----------------------------------------------------------------------------------------
-- Transformation
-----------------------------------------------------------------------------------------

/-- The working variables of `SHA1_transform`. -/
inductive Variable
  | a
  | b
  | c
  | d
  | e
deriving DecidableEq, Repr

/-- The variables that a round works on, by the names of the macros' parameters. -/
structure Names where
  v : Variable
  w : Variable
  x : Variable
  y : Variable
  z : Variable
deriving DecidableEq, Repr

/-- What is different between the macros `R0` to `R4`. -/
inductive Kind
  | r0
  | r1
  | r2
  | r3
  | r4
deriving DecidableEq, Repr

/-- The macro `blk0`: the word in big-endian order, stored in its place. -/
def blk0 (block : List (Word 4)) (i : Nat) : Word 4 × List (Word 4) :=
  let l := block.getD i 0
  let word := (rol l 24 &&& 0xFF00FF00) ||| (rol l 8 &&& 0x00FF00FF)
  (word, block.set i word)

/-- The macro `blk`: the next word of the schedule, stored in the place of the oldest one. -/
def blk (block : List (Word 4)) (i : Nat) : Word 4 × List (Word 4) :=
  let l (j : Nat) : Word 4 := block.getD (j &&& 15) 0
  let word := rol (l (i + 13) ^^^ l (i + 8) ^^^ l (i + 2) ^^^ l i) 1
  (word, block.set (i &&& 15) word)

namespace Kind

/-- How a macro combines `w`, `x` and `y`. -/
def mix (w x y : Word 4) : Kind → Word 4
  | .r0 => (w &&& (x ^^^ y)) ^^^ y
  | .r1 => (w &&& (x ^^^ y)) ^^^ y
  | .r2 => w ^^^ x ^^^ y
  | .r3 => ((w ||| x) &&& y) ||| (w &&& x)
  | .r4 => w ^^^ x ^^^ y

/-- The word that a macro adds, with the block after it. -/
def expand (block : List (Word 4)) (i : Nat) : Kind → Word 4 × List (Word 4)
  | .r0 => blk0 block i
  | _ => blk block i

/-- The constant that a macro adds. -/
def constant : Kind → Word 4
  | .r0 => 0x5A827999
  | .r1 => 0x5A827999
  | .r2 => 0x6ED9EBA1
  | .r3 => 0x8F1BBCDC
  | .r4 => 0xCA62C1D6

end Kind

/-- One use of a macro. -/
structure Round where
  kind : Kind
  names : Names
  i : Nat
deriving DecidableEq, Repr

def r0 (v w x y z : Variable) (i : Nat) : Round := ⟨.r0, ⟨v, w, x, y, z⟩, i⟩
def r1 (v w x y z : Variable) (i : Nat) : Round := ⟨.r1, ⟨v, w, x, y, z⟩, i⟩
def r2 (v w x y z : Variable) (i : Nat) : Round := ⟨.r2, ⟨v, w, x, y, z⟩, i⟩
def r3 (v w x y z : Variable) (i : Nat) : Round := ⟨.r3, ⟨v, w, x, y, z⟩, i⟩
def r4 (v w x y z : Variable) (i : Nat) : Round := ⟨.r4, ⟨v, w, x, y, z⟩, i⟩

/-- The values of the working variables and the sixteen words of the block. -/
structure Working where
  value : Variable → Word 4
  block : List (Word 4)

/-- The body of the macros: `z` takes the sum, and `w` is rotated. -/
def Round.run (working : Working) (round : Round) : Working :=
  let names := round.names
  let value := working.value
  let (word, block) := round.kind.expand working.block round.i
  let sum :=
    round.kind.mix (value names.w) (value names.x) (value names.y) + word + round.kind.constant
      + rol (value names.v) 5
  let added := Function.update value names.z (value names.z + sum)
  ⟨Function.update added names.w (rol (added names.w) 30), block⟩

open Variable in
/-- The unrolled rounds of `SHA1_transform`. -/
def rounds : List Round :=
  [r0 a b c d e 0, r0 e a b c d 1, r0 d e a b c 2, r0 c d e a b 3,
    r0 b c d e a 4, r0 a b c d e 5, r0 e a b c d 6, r0 d e a b c 7,
    r0 c d e a b 8, r0 b c d e a 9, r0 a b c d e 10, r0 e a b c d 11,
    r0 d e a b c 12, r0 c d e a b 13, r0 b c d e a 14, r0 a b c d e 15,
    r1 e a b c d 16, r1 d e a b c 17, r1 c d e a b 18, r1 b c d e a 19,
    r2 a b c d e 20, r2 e a b c d 21, r2 d e a b c 22, r2 c d e a b 23,
    r2 b c d e a 24, r2 a b c d e 25, r2 e a b c d 26, r2 d e a b c 27,
    r2 c d e a b 28, r2 b c d e a 29, r2 a b c d e 30, r2 e a b c d 31,
    r2 d e a b c 32, r2 c d e a b 33, r2 b c d e a 34, r2 a b c d e 35,
    r2 e a b c d 36, r2 d e a b c 37, r2 c d e a b 38, r2 b c d e a 39,
    r3 a b c d e 40, r3 e a b c d 41, r3 d e a b c 42, r3 c d e a b 43,
    r3 b c d e a 44, r3 a b c d e 45, r3 e a b c d 46, r3 d e a b c 47,
    r3 c d e a b 48, r3 b c d e a 49, r3 a b c d e 50, r3 e a b c d 51,
    r3 d e a b c 52, r3 c d e a b 53, r3 b c d e a 54, r3 a b c d e 55,
    r3 e a b c d 56, r3 d e a b c 57, r3 c d e a b 58, r3 b c d e a 59,
    r4 a b c d e 60, r4 e a b c d 61, r4 d e a b c 62, r4 c d e a b 63,
    r4 b c d e a 64, r4 a b c d e 65, r4 e a b c d 66, r4 d e a b c 67,
    r4 c d e a b 68, r4 b c d e a 69, r4 a b c d e 70, r4 e a b c d 71,
    r4 d e a b c 72, r4 c d e a b 73, r4 b c d e a 74, r4 a b c d e 75,
    r4 e a b c d 76, r4 d e a b c 77, r4 c d e a b 78, r4 b c d e a 79]

/-- The five words of a `state`. -/
abbrev State := Vector (Word 4) 5

/-- The working variables start as copies of the state. -/
def State.value (state : State) : Variable → Word 4
  | .a => state[0]
  | .b => state[1]
  | .c => state[2]
  | .d => state[3]
  | .e => state[4]

/-- The copy of a block as sixteen words of the host, least significant byte first. -/
def loadBlock (buffer : List Byte) : List (Word 4) :=
  (List.range 16).map fun i => (Layout.littleEndian 4).gather (window buffer (4 * i) 4)

/-- `SHA1_transform` of a state by the 64 bytes at `buffer`. -/
def transform (state : State) (buffer : List Byte) : State :=
  let working := rounds.foldl Round.run ⟨state.value, loadBlock buffer⟩
  #v[state[0] + working.value .a, state[1] + working.value .b, state[2] + working.value .c,
    state[3] + working.value .d, state[4] + working.value .e]

-----------------------------------------------------------------------------------------
-- Context
-----------------------------------------------------------------------------------------

/-- The fields of `SHA1_CTX`; the number of bits is kept in two words, the low one first. -/
structure Context where
  state : State
  count0 : Word 4
  count1 : Word 4
  buffer : List Byte
deriving DecidableEq, Repr

namespace Context

/-- `SHA1_init`, which leaves the buffer as it is. -/
def init (context : Context) : Context :=
  { context with
    state := #v[0x67452301, 0xEFCDAB89, 0x98BADCFE, 0x10325476, 0xC3D2E1F0]
    count0 := 0
    count1 := 0 }

/-- Update the number of bits for `len` more bytes, with the carry. -/
def countBits (context : Context) (len : Nat) : Context :=
  let added : Word 4 := BitVec.ofNat _ (len <<< 3)
  let count0 := context.count0 + added
  let count1 := if count0 < added then context.count1 + 1 else context.count1
  { context with count0 := count0, count1 := count1 + BitVec.ofNat _ (len >>> 29) }

/-- The loop of `SHA1_update` over the blocks of the data from `i` on, with `i` at its end. -/
def transformBlocks (data : List Byte) (state : State) (i : Nat) : State × Nat :=
  if i + 63 < data.length then
    transformBlocks data (transform state (window data i 64)) (i + 64)
  else (state, i)
termination_by data.length - i

/-- `SHA1_update`. -/
def update (context : Context) (data : List Byte) : Option Context :=
  let index := ((context.count0 >>> 3) &&& 63).toNat
  let counted := context.countBits data.length
  if index + data.length > 63 then do
    let first ← readMemory data 0 (64 - index)
    let filled ← writeMemory context.buffer index first
    let (state, i) := transformBlocks data (transform context.state filled) (64 - index)
    let rest ← readMemory data i (data.length - i)
    let buffer ← writeMemory filled 0 rest
    return { counted with state := state, buffer := buffer }
  else do
    let buffer ← writeMemory context.buffer index data
    return { counted with buffer := buffer }

/-- The bytes of `finalcount`: the number of bits, most significant byte first. -/
def finalcount (context : Context) : List Byte :=
  (List.range 8).map fun i =>
    let count := if i ≥ 4 then context.count0 else context.count1
    ((count >>> ((3 - (i &&& 3)) * 8)) &&& 255).setWidth 8

/-- The loop of `SHA1_final` that appends zero bytes. Each one moves the count on by a byte, so that
it ends within 64 rounds.
-/
def appendZeros : Nat → Context → Option Context
  | 0, _ => none
  | rounds + 1, context =>
      if context.count0 &&& 504 ≠ 448 then do
        appendZeros rounds (← context.update [0])
      else some context

/-- The bytes of the digest: the words of the state, most significant byte first. -/
def digest (context : Context) : List Byte :=
  (List.range 20).map fun i =>
    ((context.state.toList.getD (i >>> 2) 0 >>> ((3 - (i &&& 3)) * 8)) &&& 255).setWidth 8

/-- `SHA1_final`, with the digest that it stores. The context is wiped and transformed once more. -/
def final (context : Context) : Option (Context × List Byte) := do
  let finalcount := context.finalcount
  let marked ← context.update [0x80]
  let filled ← appendZeros 64 marked
  let complete ← filled.update finalcount
  let buffer ← writeMemory complete.buffer 0 (List.replicate 64 0)
  let wiped : Context :=
    { state := transform (.replicate 5 0) buffer
      count0 := 0
      count1 := 0
      buffer := buffer }
  return (wiped, complete.digest)

end Context

end Sha1

end RtcBase.Digests
