import RtcBase.Digests.References
import RtcBase.Digests.Sha1

/-! `SHA1_transform` takes in a block as the standard does. The unrolled rounds keep the working
variables in place and change their names instead; the words of the schedule take the places of
those sixteen before them.
-/

namespace RtcBase.Digests

open Library

namespace Sha1

-----------------------------------------------------------------------------------------
-- Operations on words
-----------------------------------------------------------------------------------------

/-- The macro `rol` rotates, as the standard's operation does. -/
theorem rol_eq_rotateLeft (value : Word 4) {bits : Nat} (small : bits < 32)
    : rol value bits = value.rotateLeft bits := by
  rw [rol, BitVec.rotateLeft_def, Nat.mod_eq_of_lt small]

/-- The shorter form of the choice function, bit by bit. -/
theorem choose_eq_ch (w x y : Word 4) : (w &&& (x ^^^ y)) ^^^ y = Fips180.ch w x y := by
  apply BitVec.eq_of_getLsbD_eq
  intro j inside
  simp only [Fips180.ch, BitVec.getLsbD_xor, BitVec.getLsbD_and, BitVec.getLsbD_not, inside,
    decide_true, Bool.true_and]
  cases w.getLsbD j <;> cases x.getLsbD j <;> cases y.getLsbD j <;> rfl

/-- The shorter form of the majority function, bit by bit. -/
theorem most_eq_maj (w x y : Word 4)
    : ((w ||| x) &&& y) ||| (w &&& x) = Fips180.maj w x y := by
  apply BitVec.eq_of_getLsbD_eq
  intro j inside
  simp only [Fips180.maj, BitVec.getLsbD_xor, BitVec.getLsbD_and, BitVec.getLsbD_or]
  cases w.getLsbD j <;> cases x.getLsbD j <;> cases y.getLsbD j <;> rfl

/-- The two masked rotations of `blk0` turn the host's reading of four bytes into the big-endian
one, by cases on the byte that a bit is in.
-/
theorem swapped_gather (memory : List Byte)
    : (rol ((Layout.littleEndian 4).gather memory) 24 &&& 0xFF00FF00)
        ||| (rol ((Layout.littleEndian 4).gather memory) 8 &&& 0x00FF00FF)
      = (Layout.bigEndian 4).gather memory := by
  have odd : ∀ j < 32, (0xFF00FF00 : Word 4).getLsbD j = decide (j / 8 % 2 = 1) := by decide
  have even : ∀ j < 32, (0x00FF00FF : Word 4).getLsbD j = decide (j / 8 % 2 = 0) := by decide
  have bit (k : Nat) (inside : k < 8 * 4)
      : ((Layout.littleEndian 4).gather memory).getLsbD k
        = (memory.getD (k / 8) 0).getLsbD (k % 8) :=
    Layout.getLsbD_gather _ _ inside
  have none (k : Nat) (outside : 32 ≤ k)
      : ((Layout.littleEndian 4).gather memory).getLsbD k = false :=
    BitVec.getLsbD_of_ge _ _ outside
  apply BitVec.eq_of_getLsbD_eq
  intro j inside
  rw [Layout.getLsbD_gather _ _ inside]
  simp only [rol, BitVec.getLsbD_or, BitVec.getLsbD_and, BitVec.getLsbD_shiftLeft,
    BitVec.getLsbD_ushiftRight, odd j inside, even j inside, inside, decide_true, Bool.true_and]
  have byte : j / 8 = 0 ∨ j / 8 = 1 ∨ j / 8 = 2 ∨ j / 8 = 3 := by omega
  rcases byte with byte | byte | byte | byte
  · have same : (24 + j) % 8 = j % 8 := by omega
    have source : (24 + j) / 8 = 3 := by omega
    simp [byte, bit (24 + j) (by omega), same, source, Layout.bigEndian, show j < 8 by omega]
  · have same : (8 + j) % 8 = j % 8 := by omega
    have source : (8 + j) / 8 = 2 := by omega
    simp [byte, bit (8 + j) (by omega), same, source, Layout.bigEndian, show j < 24 by omega]
  · have same : (j - 8) % 8 = j % 8 := by omega
    have source : (j - 8) / 8 = 1 := by omega
    simp [byte, bit (j - 8) (by omega), none (24 + j) (by omega), same, source, Layout.bigEndian,
      show ¬ j < 8 by omega]
  · have same : (j - 24) % 8 = j % 8 := by omega
    have source : (j - 24) / 8 = 0 := by omega
    simp [byte, bit (j - 24) (by omega), none (8 + j) (by omega), same, source, Layout.bigEndian,
      show ¬ j < 24 by omega]

-----------------------------------------------------------------------------------------
-- The message schedule
-----------------------------------------------------------------------------------------

/-- The schedule has as many words as asked for. -/
@[simp] theorem length_schedule (block : List Byte) (n : Nat)
    : (Fips180.schedule block n).length = n := by
  induction n with
  | zero => rfl
  | succ n ih => simp [Fips180.schedule, ih]

/-- Word `t` of the message schedule. -/
def scheduleWord (block : List Byte) (t : Nat) : Word 4 :=
  (Fips180.schedule block (t + 1)).getD t 0

/-- A longer schedule starts with the same words, by induction on the longer one. -/
theorem schedule_getD {block : List Byte} {t n : Nat} (word : t < n)
    : (Fips180.schedule block n).getD t 0 = scheduleWord block t := by
  induction n with
  | zero => omega
  | succ n ih =>
      by_cases last : t = n
      · rw [last, scheduleWord]
      · rw [← ih (by omega), Fips180.schedule, List.getD_append _ _ _ _ (by simp; omega)]

/-- The first words are those of the block. -/
theorem scheduleWord_of_lt (block : List Byte) {t : Nat} (input : t < 16)
    : scheduleWord block t = Fips180.blockWord block t := by
  rw [scheduleWord, Fips180.schedule, List.getD_append_right _ _ _ _ (by simp)]
  simp [input]

/-- The later words are made of earlier ones. -/
theorem scheduleWord_of_le (block : List Byte) {t : Nat} (later : 16 ≤ t)
    : scheduleWord block t
      = (scheduleWord block (t - 3) ^^^ scheduleWord block (t - 8) ^^^ scheduleWord block (t - 14)
          ^^^ scheduleWord block (t - 16)).rotateLeft 1 := by
  rw [scheduleWord, Fips180.schedule, List.getD_append_right _ _ _ _ (by simp)]
  simp only [length_schedule, Nat.sub_self, List.getD_cons_zero, if_neg (by omega : ¬ t < 16)]
  rw [schedule_getD (by omega), schedule_getD (by omega), schedule_getD (by omega),
    schedule_getD (by omega)]

/-- The words in place before round `t`: the last sixteen words of the schedule so far, each in the
place of its number modulo 16, and the words of the host that have not had their turn.
-/
structure Expanded (bytes : List Byte) (t : Nat) (block : List (Word 4)) : Prop where
  length : block.length = 16
  done : ∀ s, s < t → t ≤ s + 16 → block.getD (s % 16) 0 = scheduleWord bytes s
  waiting
    : ∀ s, t ≤ s → s < 16
        → block.getD s 0 = (Layout.littleEndian 4).gather (window bytes (4 * s) 4)

/-- Nothing is expanded yet in the copy of a block. -/
theorem expanded_loadBlock (bytes : List Byte) : Expanded bytes 0 (loadBlock bytes) where
  length := by simp [loadBlock]
  done s before := by omega
  waiting s _ word := by simp [loadBlock, List.getD, word]

/-- The word of a round is stored in the place that its number is due. -/
theorem Expanded.store {bytes : List Byte} {t : Nat} {block : List (Word 4)}
    (h : Expanded bytes t block)
    : Expanded bytes (t + 1) (block.set (t % 16) (scheduleWord bytes t)) where
  length := by rw [List.length_set, h.length]
  done s before recent := by
    by_cases now : s = t
    · subst now
      have place : s % 16 < block.length := by rw [h.length]; omega
      simp [List.getD, place]
    · have apart : t % 16 ≠ s % 16 := by omega
      rw [List.getD, List.getElem?_set_ne apart]
      exact h.done s (by omega) (by omega)
  waiting s from_ word := by
    have apart : t % 16 ≠ s := by omega
    rw [List.getD, List.getElem?_set_ne apart]
    exact h.waiting s (by omega) word

/-- The macro `blk0` gives the words of the block. -/
theorem Expanded.blk0 {bytes : List Byte} {t : Nat} {block : List (Word 4)}
    (h : Expanded bytes t block) (input : t < 16)
    : blk0 block t = (scheduleWord bytes t, block.set (t % 16) (scheduleWord bytes t)) := by
  have word := h.waiting t (Nat.le_refl t) input
  simp only [Sha1.blk0, word, swapped_gather, Nat.mod_eq_of_lt input]
  rw [scheduleWord_of_lt bytes input, Fips180.blockWord]

/-- The macro `blk` gives the later words of the schedule. -/
theorem Expanded.blk {bytes : List Byte} {t : Nat} {block : List (Word 4)}
    (h : Expanded bytes t block) (later : 16 ≤ t)
    : blk block t = (scheduleWord bytes t, block.set (t % 16) (scheduleWord bytes t)) := by
  have place (j : Nat) : j &&& 15 = j % 16 := Nat.and_two_pow_sub_one_eq_mod j 4
  have earlier {j s : Nat} (same : j % 16 = s % 16) (before : s < t) (recent : t ≤ s + 16)
      : block.getD (j % 16) 0 = scheduleWord bytes s := by
    rw [same, h.done s before recent]
  simp only [Sha1.blk, place, rol_eq_rotateLeft _ (show 1 < 32 by omega),
    earlier (show (t + 13) % 16 = (t - 3) % 16 by omega) (by omega) (by omega),
    earlier (show (t + 8) % 16 = (t - 8) % 16 by omega) (by omega) (by omega),
    earlier (show (t + 2) % 16 = (t - 14) % 16 by omega) (by omega) (by omega),
    earlier (show t % 16 = (t - 16) % 16 by omega) (by omega) (by omega)]
  rw [← scheduleWord_of_le bytes later]

-----------------------------------------------------------------------------------------
-- Rounds
-----------------------------------------------------------------------------------------

/-- The names of the next round: each variable plays the part of the one before it. -/
def Names.turn (names : Names) : Names :=
  ⟨names.z, names.v, names.w, names.x, names.y⟩

/-- The names in round `t`. -/
def namesAt : Nat → Names
  | 0 => ⟨.a, .b, .c, .d, .e⟩
  | t + 1 => (namesAt t).turn

/-- The macro of round `t`. -/
def kindAt (t : Nat) : Kind :=
  if t < 16 then .r0 else if t < 20 then .r1 else if t < 40 then .r2 else if t < 60 then .r3 else .r4

/-- The unrolled rounds use their macros and names in turn. -/
theorem rounds_eq : rounds = (List.range 80).map fun t => ⟨kindAt t, namesAt t, t⟩ := by decide

/-- The names of a round are different variables. -/
def Names.Distinct (names : Names) : Prop :=
  [names.v, names.w, names.x, names.y, names.z].Nodup

/-- The names of every round are different variables, by induction on the rounds. -/
theorem namesAt_distinct (t : Nat) : (namesAt t).Distinct := by
  induction t with
  | zero =>
      rw [Names.Distinct]
      decide
  | succ t ih =>
      have turned : List.Perm [(namesAt t).z, (namesAt t).v, (namesAt t).w, (namesAt t).x,
          (namesAt t).y] [(namesAt t).v, (namesAt t).w, (namesAt t).x, (namesAt t).y,
          (namesAt t).z] :=
        (List.perm_append_singleton (namesAt t).z _).symm
      exact turned.nodup_iff.mpr ih

/-- The working variables in the order of the standard. -/
def Names.read (names : Names) (value : Variable → Word 4) : Fips180.Variables :=
  ⟨value names.v, value names.w, value names.x, value names.y, value names.z⟩

/-- The macro of a round combines and adds what the standard says for its step. -/
theorem kindAt_spec {t : Nat} (round : t < 80) (w x y : Word 4)
    : (kindAt t).mix w x y = Fips180.logical t w x y
      ∧ (kindAt t).constant = Fips180.constant t := by
  unfold kindAt Fips180.logical Fips180.constant
  split_ifs <;> first | omega | skip
  all_goals refine ⟨?_, rfl⟩
  · exact choose_eq_ch w x y
  · exact choose_eq_ch w x y
  · rfl
  · exact most_eq_maj w x y
  · rfl

/-- The macro of a round expands the block by one word. -/
theorem Expanded.expand {bytes : List Byte} {t : Nat} {block : List (Word 4)}
    (h : Expanded bytes t block)
    : (kindAt t).expand block t
      = (scheduleWord bytes t, block.set (t % 16) (scheduleWord bytes t)) := by
  by_cases input : t < 16
  · rw [kindAt, if_pos input]
    exact h.blk0 input
  · rw [kindAt, if_neg input]
    split_ifs <;> exact h.blk (by omega)

/-- New values for `z` and `w`, read with the next names. -/
theorem Names.Distinct.read_turn {names : Names} (distinct : names.Distinct)
    (value : Variable → Word 4) (sum rotated : Word 4)
    : names.turn.read (Function.update (Function.update value names.z sum) names.w rotated)
        = ⟨sum, value names.v, rotated, value names.x, value names.y⟩
      ∧ Function.update value names.z sum names.w = value names.w := by
  simp only [Names.Distinct, List.nodup_cons, List.mem_cons, List.not_mem_nil, or_false, not_or]
    at distinct
  obtain ⟨⟨vw, -, -, vz⟩, ⟨wx, wy, wz⟩, ⟨-, xz⟩, yz, -⟩ := distinct
  refine ⟨?_, Function.update_of_ne wz _ _⟩
  simp only [Names.turn, Names.read, Function.update_self, Function.update_of_ne vw,
    Function.update_of_ne vz, Function.update_of_ne (Ne.symm wz), Function.update_of_ne xz,
    Function.update_of_ne (Ne.symm wx), Function.update_of_ne yz,
    Function.update_of_ne (Ne.symm wy)]

/-- The sum of a round, in the order of the standard. -/
theorem sum_eq (z mix word constant rotated : Word 4)
    : z + (mix + word + constant + rotated) = rotated + mix + z + constant + word := by
  ac_rfl

/-- A round is a step of the standard, read with the next names. -/
theorem read_run {t : Nat} (round : t < 80) {bytes : List Byte} {working : Working}
    (h : Expanded bytes t working.block)
    : (namesAt (t + 1)).read (Round.run working ⟨kindAt t, namesAt t, t⟩).value
        = Fips180.step t (scheduleWord bytes t) ((namesAt t).read working.value)
      ∧ Expanded bytes (t + 1) (Round.run working ⟨kindAt t, namesAt t, t⟩).block := by
  simp only [Round.run, h.expand]
  refine ⟨?_, h.store⟩
  obtain ⟨turned, same⟩ := (namesAt_distinct t).read_turn working.value _ _
  obtain ⟨mix, constant⟩ := kindAt_spec round (working.value (namesAt t).w)
    (working.value (namesAt t).x) (working.value (namesAt t).y)
  rw [namesAt, turned, same, mix, constant, sum_eq, rol_eq_rotateLeft _ (show 5 < 32 by omega),
    rol_eq_rotateLeft _ (show 30 < 32 by omega)]
  rfl

/-- The first rounds are the first steps, by induction on their number. -/
theorem read_rounds (bytes : List Byte) (value : Variable → Word 4) {n : Nat} (some_ : n ≤ 80)
    : (namesAt n).read
          (((List.range n).map fun t => (⟨kindAt t, namesAt t, t⟩ : Round)).foldl Round.run
            ⟨value, loadBlock bytes⟩).value
        = Fips180.steps (Fips180.schedule bytes 80) ((namesAt 0).read value) n
      ∧ Expanded bytes n
          (((List.range n).map fun t => (⟨kindAt t, namesAt t, t⟩ : Round)).foldl Round.run
            ⟨value, loadBlock bytes⟩).block := by
  induction n with
  | zero => exact ⟨rfl, expanded_loadBlock bytes⟩
  | succ n ih =>
      obtain ⟨values, expanded⟩ := ih (by omega)
      rw [List.range_succ, List.map_append, List.foldl_append]
      obtain ⟨next, stored⟩ := read_run (by omega : n < 80) expanded
      refine ⟨?_, stored⟩
      rw [Fips180.steps, schedule_getD (by omega), ← values]
      exact next

/-- The state as the hash value of the standard. -/
def State.hash (state : State) : Fips180.Variables :=
  ⟨state.value .a, state.value .b, state.value .c, state.value .d, state.value .e⟩

/-- `SHA1_transform` takes in a block as the standard does. -/
theorem hash_transform (state : State) (buffer : List Byte)
    : (transform state buffer).hash = Fips180.compress state.hash buffer := by
  obtain ⟨values, -⟩ := read_rounds buffer state.value (Nat.le_refl 80)
  rw [← rounds_eq] at values
  have last : namesAt 80 = ⟨.a, .b, .c, .d, .e⟩ := by decide
  rw [last] at values
  have start : (namesAt 0).read state.value = state.hash := rfl
  rw [start] at values
  rw [Fips180.compress, ← values]
  rfl

end Sha1

end RtcBase.Digests
