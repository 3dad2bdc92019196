import RtcBase.Library.Memory
import RtcBase.Library.ReflectedCrc
import RtcBase.Library.Runs

/-! CRC-32 from a table that the first call builds. The table is a global of the source: it is passed
to each call, which returns it as it is then.
-/

namespace RtcBase.Checksums

open Library

-----------------------------------------------------------------------------------------
-- The table
-----------------------------------------------------------------------------------------

abbrev Table := Vector (BitVec 32) 256

def crc32Polynomial : BitVec 32 := 0xEDB88320

/-- The table before the first call. -/
def zeroTable : Table := Vector.replicate 256 0

/-- The loop over the bits of an index. -/
def tableEntry (i : BitVec 32) : BitVec 32 :=
  (List.range 8).foldl
    (fun c _ => if c &&& 1 ≠ 0 then crc32Polynomial ^^^ (c >>> 1) else c >>> 1) i

/-- The table that the loop over its entries leaves. -/
def builtTable : Table := Vector.ofFn fun i => tableEntry (BitVec.ofNat 32 i)

/-- `ensure_crc32_table_inited`. The last entry says whether the table has been built. -/
def ensureCrc32TableInited (table : Table) : Table := if table[255] ≠ 0 then table else builtTable

-----------------------------------------------------------------------------------------
-- The checksum
-----------------------------------------------------------------------------------------

theorem masked_lt (index : BitVec 32) : (index &&& 0xFF).toNat < 256 := by
  rw [BitVec.toNat_and]
  exact Nat.lt_of_le_of_lt Nat.and_le_right (by decide)

/-- The step of a byte. -/
def crc32Step (table : Table) (c : BitVec 32) (u : Byte) : BitVec 32 :=
  table.get ⟨((c ^^^ u.setWidth 32) &&& 0xFF).toNat, masked_lt _⟩ ^^^ (c >>> 8)

/-- `update_crc32`. -/
def updateCrc32 (table : Table) (start : BitVec 32) (buf : List Byte) : BitVec 32 × Table :=
  let table := ensureCrc32TableInited table
  (buf.foldl (crc32Step table) (start ^^^ 0xFFFFFFFF) ^^^ 0xFFFFFFFF, table)

/-- `compute_crc32`. -/
def computeCrc32 (table : Table) (buf : List Byte) : BitVec 32 × Table := updateCrc32 table 0 buf

/-- The table after calls of `update_crc32`, each with its start and buffer. -/
def tableAfter (calls : List (BitVec 32 × List Byte)) : Table :=
  runFrom (fun table call => (updateCrc32 table call.1 call.2).2) zeroTable calls

/-- The checksum one bit at a time, inverted before and after. -/
def bitwiseCrc32 (start : BitVec 32) (message : List Byte) : BitVec 32 :=
  crcBits crc32Polynomial (start ^^^ 0xFFFFFFFF) (message.flatMap (lowBits 8)) ^^^ 0xFFFFFFFF

-----------------------------------------------------------------------------------------
-- The step of a byte
-----------------------------------------------------------------------------------------

/-- The source's test for the low bit and shift. -/
theorem shift_eq_crcBit (c : BitVec 32)
    : (if c &&& 1 ≠ 0 then crc32Polynomial ^^^ (c >>> 1) else c >>> 1)
      = crcBit crc32Polynomial c false := by
  have lowest : c &&& 1 ≠ 0 ↔ c.getLsbD 0 = true := by
    rw [show (1 : BitVec 32) = 1#32 from rfl, BitVec.and_one_eq_setWidth_ofBool_getLsbD]
    cases c.getLsbD 0 <;> decide
  simp only [lowest, crcBit, Bool.xor_false]

/-- An entry of the table is its index, shifted out. -/
theorem tableEntry_eq (i : BitVec 32) : tableEntry i = crcShift crc32Polynomial i 8 := by
  simp only [tableEntry, shift_eq_crcBit]
  rfl

theorem lowBits_setWidth (u : Byte) : lowBits 8 (u.setWidth 32) = lowBits 8 u := by
  refine List.map_congr_left fun i lower => ?_
  have := List.mem_range.mp lower
  rw [BitVec.getLsbD_setWidth]
  simp only [Bool.and_eq_right_iff_imp, decide_eq_true_eq]
  omega

theorem isLowMask_byte : IsLowMask 8 (0xFF : BitVec 32) := by
  intro i inside
  rw [show (0xFF : BitVec 32) = BitVec.ofNat 32 (2 ^ 8 - 1) from rfl, BitVec.getLsbD_ofNat,
    Nat.testBit_two_pow_sub_one]
  simp [inside]

theorem builtTable_get (i : Fin 256) : builtTable.get i = tableEntry (BitVec.ofNat 32 i) := by
  change builtTable[i.val] = _
  rw [builtTable, Vector.getElem_ofFn]

/-- A byte is looked up as its bits enter. -/
theorem crc32Step_eq (c : BitVec 32) (u : Byte)
    : crc32Step builtTable c u = crcBits crc32Polynomial c (lowBits 8 u) := by
  have small : u.setWidth 32 >>> 8 = 0#32 := by
    apply BitVec.eq_of_toNat_eq
    rw [BitVec.toNat_ushiftRight, BitVec.toNat_setWidth, Nat.shiftRight_eq_div_pow]
    have := u.isLt
    simp only [BitVec.toNat_ofNat]
    omega
  rw [← lowBits_setWidth u, crcBits_eq_crcShift _ _ isLowMask_byte small, ← tableEntry_eq, crc32Step,
    builtTable_get, BitVec.ofNat_toNat, BitVec.setWidth_eq]

-----------------------------------------------------------------------------------------
-- The table over all calls
-----------------------------------------------------------------------------------------

/-- A built table is not built again, and there is no other table than this one and zero. -/
theorem ensureCrc32TableInited_tableAfter (calls : List (BitVec 32 × List Byte))
    : ensureCrc32TableInited (tableAfter calls) = builtTable := by
  have last : builtTable[255] ≠ 0 := by
    rw [builtTable, Vector.getElem_ofFn]
    decide
  have built : ensureCrc32TableInited builtTable = builtTable := if_pos last
  have initial : ensureCrc32TableInited zeroTable = builtTable :=
    if_neg (not_not.mpr (by simp [zeroTable]))
  have preserved (table : Table) (call : BitVec 32 × List Byte)
      (ensured : ensureCrc32TableInited table = builtTable)
      : ensureCrc32TableInited (updateCrc32 table call.1 call.2).2 = builtTable := by
    rw [updateCrc32, ensured]
    exact built
  exact runFrom_invariant preserved initial calls

-----------------------------------------------------------------------------------------
-- Whole buffers
-----------------------------------------------------------------------------------------

/-- The bytes are looked up as their bits enter, by induction on the buffer. -/
theorem foldl_crc32Step (buf : List Byte) (c : BitVec 32)
    : buf.foldl (crc32Step builtTable) c
      = crcBits crc32Polynomial c (buf.flatMap (lowBits 8)) := by
  induction buf generalizing c with
  | nil => rfl
  | cons u rest ih =>
      rw [List.foldl_cons, ih, crc32Step_eq, List.flatMap_cons, crcBits_append]

/-- The checksum of a call after any others is the one of the bits. -/
theorem updateCrc32_eq (calls : List (BitVec 32 × List Byte)) (start : BitVec 32) (buf : List Byte)
    : (updateCrc32 (tableAfter calls) start buf).1 = bitwiseCrc32 start buf := by
  rw [updateCrc32, ensureCrc32TableInited_tableAfter, bitwiseCrc32, ← foldl_crc32Step]

/-- A checksum goes on where another one ended: its inversions cancel. -/
theorem bitwiseCrc32_append (start : BitVec 32) (a b : List Byte)
    : bitwiseCrc32 (bitwiseCrc32 start a) b = bitwiseCrc32 start (a ++ b) := by
  simp only [bitwiseCrc32]
  rw [BitVec.xor_assoc _ 0xFFFFFFFF 0xFFFFFFFF, BitVec.xor_self, BitVec.xor_zero, ← crcBits_append,
    List.flatMap_append]

/-- Whatever calls came before, an update is the checksum one bit at a time, and updates in turn are
the checksum of all that they were given.
-/
theorem updateCrc32_bitwise
    : (∀ calls start buf, (updateCrc32 (tableAfter calls) start buf).1 = bitwiseCrc32 start buf)
      ∧ ∀ before between other a b,
          (updateCrc32 (tableAfter between) (updateCrc32 (tableAfter before) 0 a).1 b).1
            = (computeCrc32 (tableAfter other) (a ++ b)).1 := by
  refine ⟨updateCrc32_eq, ?_⟩
  intro before between other a b
  rw [computeCrc32, updateCrc32_eq, updateCrc32_eq, updateCrc32_eq, bitwiseCrc32_append]

/-- The check value of CRC-32. -/
example : bitwiseCrc32 0 ("123456789".toList.map fun c => BitVec.ofNat 8 c.toNat) = 0xCBF43926 := by
  decide +kernel

end RtcBase.Checksums
