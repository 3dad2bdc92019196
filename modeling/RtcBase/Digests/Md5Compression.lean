import RtcBase.Digests.Md5
import RtcBase.Digests.References

/-! `MD5_transform` takes in a block as the memo says. The unrolled steps keep the variables in place
and change their names instead.
-/

namespace RtcBase.Digests

open Library

namespace Md5

/-- The optimised first core function, bit by bit. -/
theorem f1_eq (x y z : Word 4) : f1 x y z = Rfc1321.f x y z := by
  apply BitVec.eq_of_getLsbD_eq
  intro j inside
  simp only [f1, Rfc1321.f, BitVec.getLsbD_xor, BitVec.getLsbD_and, BitVec.getLsbD_or,
    BitVec.getLsbD_not, inside, decide_true, Bool.true_and]
  cases x.getLsbD j <;> cases y.getLsbD j <;> cases z.getLsbD j <;> rfl

/-- The second core function is the first one with its arguments in another order, bit by bit. -/
theorem f2_eq (x y z : Word 4) : f2 x y z = Rfc1321.g x y z := by
  apply BitVec.eq_of_getLsbD_eq
  intro j inside
  simp only [f2, f1, Rfc1321.g, BitVec.getLsbD_xor, BitVec.getLsbD_and, BitVec.getLsbD_or,
    BitVec.getLsbD_not, inside, decide_true, Bool.true_and]
  cases x.getLsbD j <;> cases y.getLsbD j <;> cases z.getLsbD j <;> rfl

/-- The core function of step `t`. -/
def coreAt (t : Nat) : Core :=
  if t < 16 then .f1 else if t < 32 then .f2 else if t < 48 then .f3 else .f4

/-- The core functions are the auxiliary functions of the memo. -/
theorem apply_coreAt (t : Nat) (x y z : Word 4)
    : (coreAt t).apply x y z = Rfc1321.auxiliary t x y z := by
  unfold coreAt Rfc1321.auxiliary
  split_ifs
  · exact f1_eq x y z
  · exact f2_eq x y z
  · rfl
  · rfl

/-- The names of the next step: each variable plays the part of the one before it. -/
def Names.turn (names : Names) : Names := ⟨names.z, names.w, names.x, names.y⟩

/-- The names in step `t`. -/
def namesAt : Nat → Names
  | 0 => ⟨.a, .b, .c, .d⟩
  | t + 1 => (namesAt t).turn

/-- Step `t`, with the numbers that the memo gives for it. -/
def stepAt (t : Nat) : Step :=
  ⟨coreAt t, namesAt t, Rfc1321.wordIndex t, Rfc1321.sineTable.getD t 0, Rfc1321.shift t⟩

/-- The unrolled steps use their names and numbers in turn. -/
theorem steps_eq : steps = (List.range 64).map stepAt := by decide

/-- The first name of a step is none of the others, by induction on the steps. -/
theorem namesAt_distinct (t : Nat)
    : [(namesAt t).w, (namesAt t).x, (namesAt t).y, (namesAt t).z].Nodup := by
  induction t with
  | zero => decide
  | succ t ih =>
      have turned
          : List.Perm [(namesAt t).z, (namesAt t).w, (namesAt t).x, (namesAt t).y]
              [(namesAt t).w, (namesAt t).x, (namesAt t).y, (namesAt t).z] :=
        (List.perm_append_singleton (namesAt t).z _).symm
      exact turned.nodup_iff.mpr ih

/-- The working variables in the order of the memo. -/
def Names.read (names : Names) (working : Working) : Rfc1321.Variables :=
  ⟨working.value names.w, working.value names.x, working.value names.y, working.value names.z⟩

/-- A new value for `w`, read with the next names. -/
theorem read_turn {names : Names} (distinct : [names.w, names.x, names.y, names.z].Nodup)
    (value : Variable → Word 4) (w : Word 4)
    : names.turn.read ⟨Function.update value names.w w⟩
      = ⟨value names.z, w, value names.x, value names.y⟩ := by
  simp only [List.nodup_cons, List.mem_cons, List.not_mem_nil, or_false, not_or] at distinct
  obtain ⟨⟨wx, wy, wz⟩, -⟩ := distinct
  simp only [Names.turn, Names.read, Function.update_self, Function.update_of_ne (Ne.symm wx),
    Function.update_of_ne (Ne.symm wy), Function.update_of_ne (Ne.symm wz)]

/-- The rotation of a step is less than a word. -/
theorem shift_lt (t : Nat) (step : t < 64) : Rfc1321.shift t < 32 := by
  have all : ∀ t < 64, Rfc1321.shift t < 32 := by decide
  exact all t step

/-- A step is an operation of the memo, read with the next names. -/
theorem read_run (memory : List Byte) (working : Working) {t : Nat} (step : t < 64)
    : (namesAt (t + 1)).read (Step.run memory working (stepAt t))
      = Rfc1321.step memory t ((namesAt t).read working) := by
  have rotates (w : Word 4)
      : (w <<< Rfc1321.shift t) ||| (w >>> (32 - Rfc1321.shift t))
        = w.rotateLeft (Rfc1321.shift t) := by
    rw [BitVec.rotateLeft_def, Nat.mod_eq_of_lt (shift_lt t step)]
  simp only [Step.run, stepAt, apply_coreAt, rotates]
  rw [namesAt, read_turn (namesAt_distinct t)]
  simp only [Rfc1321.step, Names.read, Rfc1321.blockWord, word]
  congr 1
  rw [BitVec.add_comm, BitVec.add_assoc, BitVec.add_assoc]

/-- The first steps are the first operations, by induction on their number. -/
theorem read_steps (memory : List Byte) (working : Working) {n : Nat} (most : n ≤ 64)
    : (namesAt n).read (((List.range n).map stepAt).foldl (Step.run memory) working)
      = Rfc1321.steps memory ((namesAt 0).read working) n := by
  induction n with
  | zero => rfl
  | succ n ih =>
      rw [List.range_succ, List.map_append, List.foldl_append, Rfc1321.steps, ← ih (by omega)]
      exact read_run memory _ (by omega)

/-- `buf` as the registers of the memo. -/
def Buf.hash (buf : Buf) : Rfc1321.Variables := ⟨buf.value .a, buf.value .b, buf.value .c, buf.value .d⟩

/-- `MD5_transform` takes in a block as the memo says. -/
theorem hash_transform (buf : Buf) (memory : List Byte)
    : (transform buf memory).hash = Rfc1321.compress buf.hash memory := by
  have values := read_steps memory ⟨buf.value⟩ (Nat.le_refl 64)
  rw [← steps_eq] at values
  have last : namesAt 64 = ⟨.a, .b, .c, .d⟩ := by decide
  have start : (namesAt 0).read ⟨buf.value⟩ = buf.hash := rfl
  rw [last, start] at values
  rw [Rfc1321.compress, ← values]
  rfl

/-- On a little-endian host `byte_reverse` changes nothing, by induction on the words. -/
theorem byteReverse_eq (memory : List Byte) {len : Nat} (inside : 4 * len ≤ memory.length)
    : byteReverse memory len = memory := by
  have words (n : Nat) (most : 4 * n ≤ memory.length)
      : ((List.range n).flatMap fun i => (Layout.littleEndian 4).spread (word memory i))
        = memory.take (4 * n) := by
    induction n with
    | zero => simp
    | succ n ih =>
        have size : (window memory (4 * n) 4).length = 4 := length_window (by omega)
        rw [List.range_succ, List.flatMap_append, ih (by omega), List.flatMap_singleton, word,
          Layout.spread_gather _ size, window, ← List.take_add]
        rfl
  rw [byteReverse, words len inside, List.take_append_drop]

end Md5

end RtcBase.Digests
