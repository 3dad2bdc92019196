import RtcBase.Library.Heap
import RtcBase.Library.Memory

/-! The allocator of `zmalloc.cpp` over `malloc`, `calloc`, `realloc` and `free` of the C library: a
header in front of every block holds its size, and a counter adds up what is in use.
-/

namespace RtcBase.Allocation

open RtcBase.Library

/-- `size_t`. -/
abbrev Size := Word 8

/-- The blocks of the C library, by the address that it returned for them. -/
abbrev Blocks := Heap (List Byte)

section Libc

/-- `malloc`; a new block holds whatever was there. -/
def malloc (blocks : Blocks) (bytes : Nat) (garbage : Nat → Byte) : Nat × Blocks :=
  (blocks.next, blocks.create ((List.range bytes).map garbage))

/-- `calloc`. -/
def calloc (blocks : Blocks) (bytes : Nat) : Nat × Blocks :=
  (blocks.next, blocks.create (List.replicate bytes 0))

/-- `realloc`: a new block that begins as the old one did, which is no block any more. -/
def realloc (blocks : Blocks) (address bytes : Nat) (garbage : Nat → Byte)
    : Option (Nat × Blocks) := do
  let old ← blocks.objects address
  let moved := blocks.create ((List.range bytes).map fun i => old.getD i (garbage i))
  let freed ← moved.delete address
  pure (blocks.next, freed)

/-- A store into a block; `none` when it leaves the block or there is none. -/
def store (blocks : Blocks) (address offset : Nat) (data : List Byte) : Option Blocks := do
  let block ← blocks.objects address
  let after ← writeMemory block offset data
  blocks.modify address fun _ => after

/-- A load from a block. -/
def load (blocks : Blocks) (address offset len : Nat) : Option (List Byte) := do
  let block ← blocks.objects address
  readMemory block offset len

end Libc

/-- `PREFIX_SIZE`. -/
def prefixSize : Nat := 8

/-- Round up to a multiple of `sizeof(long)`. -/
def roundUp (n : Size) : Size := if n &&& 7 ≠ 0 then n + (8 - (n &&& 7)) else n

/-- The static variables of the module with the blocks of the C library. -/
structure Zmalloc where
  blocks : Blocks
  usedMemory : Size

namespace Zmalloc

variable (layout : Layout 8)

def create : Zmalloc := ⟨Heap.empty, 0⟩

/-- `update_zmalloc_stat_alloc`. -/
def statAlloc (usedMemory n : Size) : Size := usedMemory + roundUp n

/-- `update_zmalloc_stat_free`. -/
def statFree (usedMemory n : Size) : Size := usedMemory - roundUp n

/-- `*((size_t*)ptr) = size`. -/
def storeSize (blocks : Blocks) (address : Nat) (size : Size) : Option Blocks :=
  store blocks address 0 (layout.spread size)

/-- `*((size_t*)ptr)`. -/
def loadSize (blocks : Blocks) (address : Nat) : Option Size :=
  (load blocks address 0 prefixSize).map layout.gather

/-- The tail that `zmalloc` and `zcalloc` share once the C library has given them a block. -/
def adopt (state : Zmalloc) (block : Nat × Blocks) (size : Size) : Option (Nat × Zmalloc) := do
  let blocks ← storeSize layout block.2 block.1 size
  pure (block.1, ⟨blocks, statAlloc state.usedMemory (size + 8)⟩)

/-- `zmalloc`. Pointers are written as the block they point into, `prefixSize` bytes in. -/
def zmalloc (state : Zmalloc) (size : Size) (garbage : Nat → Byte) : Option (Nat × Zmalloc) :=
  adopt layout state (malloc state.blocks (size + 8).toNat garbage) size

def zcalloc (state : Zmalloc) (size : Size) : Option (Nat × Zmalloc) :=
  adopt layout state (calloc state.blocks (size + 8).toNat) size

def zrealloc (state : Zmalloc) (ptr : Option Nat) (size : Size) (garbage : Nat → Byte)
    : Option (Nat × Zmalloc) :=
  match ptr with
  | none => zmalloc layout state size garbage
  | some address => do
      let oldSize ← loadSize layout state.blocks address
      let moved ← realloc state.blocks address (size + 8).toNat garbage
      let blocks ← storeSize layout moved.2 moved.1 size
      -- neither of the two sizes has the prefix in it
      pure (moved.1, ⟨blocks, statAlloc (statFree state.usedMemory oldSize) size⟩)

def zmallocSize (state : Zmalloc) (address : Nat) : Option Size := do
  let size ← loadSize layout state.blocks address
  pure (roundUp size + 8)

def zfree (state : Zmalloc) (ptr : Option Nat) : Option Zmalloc :=
  match ptr with
  | none => some state
  | some address => do
      let oldSize ← loadSize layout state.blocks address
      let blocks ← state.blocks.delete address
      pure ⟨blocks, statFree state.usedMemory (oldSize + 8)⟩

/-- `zstrdup` of a string, given without its terminating zero. -/
def zstrdup (state : Zmalloc) (s : List Byte) (garbage : Nat → Byte) : Option (Nat × Zmalloc) := do
  let allocated ← zmalloc layout state (BitVec.ofNat 64 (s.length + 1)) garbage
  let blocks ← store allocated.2.blocks allocated.1 prefixSize (s ++ [0])
  pure (allocated.1, { allocated.2 with blocks })

def zmallocUsedMemory (state : Zmalloc) : Size := state.usedMemory

/-- What a program does with the module: it calls it and writes into its own blocks. -/
inductive Request where
  | zmalloc (size : Size) (garbage : Nat → Byte)
  | zcalloc (size : Size)
  | zrealloc (ptr : Option Nat) (size : Size) (garbage : Nat → Byte)
  | zfree (ptr : Option Nat)
  | zstrdup (s : List Byte) (garbage : Nat → Byte)
  | write (address offset : Nat) (data : List Byte)

/-- A request that returns a pointer. -/
def returning (outcome : Option (Nat × Zmalloc)) : Option (Zmalloc × List Nat) :=
  outcome.map fun result => (result.2, [result.1])

/-- One request, with the pointer that it returns if any; `none` for undefined behaviour. -/
def step (state : Zmalloc) : Request → Option (Zmalloc × List Nat)
  | .zmalloc size garbage => returning (zmalloc layout state size garbage)
  | .zcalloc size => returning (zcalloc layout state size)
  | .zrealloc ptr size garbage => returning (zrealloc layout state ptr size garbage)
  | .zfree ptr => (zfree layout state ptr).map fun after => (after, [])
  | .zstrdup s garbage => returning (zstrdup layout state s garbage)
  | .write address offset data =>
      (store state.blocks address (prefixSize + offset) data).map fun blocks =>
        ({ state with blocks }, [])

end Zmalloc

end RtcBase.Allocation
