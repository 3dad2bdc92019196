import RtcBase.Networks.Truncation

/-! The length of a mask. `count_IP_mask_bits` looks for the last bit set in the first word that is
not all ones, where the documented length is the number of bits set in front of the first zero.
-/

namespace RtcBase.Networks

open Library

-----------------------------------------------------------------------------------------
-- The bit hack
-----------------------------------------------------------------------------------------

/-- The bit that a number shares with its negation is the lowest one. -/
theorem and_neg_of_lowest {w k : Nat} {v : BitVec w} (set : v.getLsbD k = true)
    (clear : ∀ j < k, v.getLsbD j = false)
    : v &&& (~~~v + 1) = BitVec.twoPow w k := by
  have inside : k < w := BitVec.lt_of_getLsbD set
  apply BitVec.eq_of_getLsbD_eq
  intro i bit
  have negated : ~~~v + 1 = -v := (BitVec.neg_eq_not_add v).symm
  rw [negated, BitVec.getLsbD_and, BitVec.getLsbD_neg, BitVec.getLsbD_twoPow]
  rcases Nat.lt_trichotomy i k with below | rfl | above
  · simp [clear i below]
    omega
  · have none : ¬ ∃ j < i, v.getLsbD j = true := by
      rintro ⟨j, below, found⟩
      rw [clear j below] at found
      cases found
    simp [set, none, inside]
  · have lower : ∃ j < i, v.getLsbD j = true := ⟨k, above, set⟩
    have other : k ≠ i := by omega
    cases v.getLsbD i <;> simp [lower, other, bit]

/-- The bit hack counts the zeroes below the lowest bit that is set. -/
theorem trailingZeroes_eq {v : Word 4} {k : Nat} (set : v.getLsbD k = true)
    (clear : ∀ j < k, v.getLsbD j = false)
    : IPAddress.trailingZeroes v = k := by
  have inside : k < 32 := BitVec.lt_of_getLsbD set
  have powers : ∀ k < 32, IPAddress.trailingZeroes (BitVec.twoPow 32 k) = k := by
    decide
  have same : IPAddress.trailingZeroes v = IPAddress.trailingZeroes (BitVec.twoPow 32 k) := by
    have power : BitVec.twoPow 32 k &&& (~~~BitVec.twoPow 32 k + 1) = BitVec.twoPow 32 k := by
      apply and_neg_of_lowest
      · simp [inside]
      · intro j below
        simp
        omega
    simp only [IPAddress.trailingZeroes, and_neg_of_lowest set clear, power]
  rw [same, powers k inside]

/-- What `count_IP_mask_bits` counts in one word: the bits up to the last one that is set. -/
def bitsThroughLastOne (v : Word 4) : Nat := if v = 0 then 0 else 32 - IPAddress.trailingZeroes v

theorem add_bitsThroughLastOne (bits : Nat) (v : Word 4)
    : bits + bitsThroughLastOne v
      = if v = 0 then bits else bits + (32 - IPAddress.trailingZeroes v) := by
  unfold bitsThroughLastOne
  split <;> rfl

/-- No bit is set behind the bits that are counted, and the last of them is set. -/
theorem bitsThroughLastOne_spec (v : Word 4)
    : bitsThroughLastOne v ≤ 32
      ∧ (∀ k, bitsThroughLastOne v ≤ k → v.getMsbD k = false)
      ∧ (0 < bitsThroughLastOne v → v.getMsbD (bitsThroughLastOne v - 1) = true) := by
  unfold bitsThroughLastOne
  split
  case isTrue zero => simp [zero]
  case isFalse nonzero =>
    have set := BitVec.getLsbD_true_ctz_of_ne_zero nonzero
    have clear (j : Nat) (below : j < v.ctz.toNat) := BitVec.getLsbD_false_of_lt_ctz below
    have inside : v.ctz.toNat < 32 := BitVec.lt_of_getLsbD set
    rw [trailingZeroes_eq set clear]
    refine ⟨Nat.sub_le _ _, ?_, ?_⟩
    · intro k behind
      rw [BitVec.getMsbD_eq_getLsbD]
      by_cases bit : k < 32
      · rw [clear _ (by omega), Bool.and_false]
      · simp [bit]
    · intro _
      have place : 32 - 1 - (32 - v.ctz.toNat - 1) = v.ctz.toNat := by omega
      have bit : 32 - v.ctz.toNat - 1 < 32 := by omega
      rw [BitVec.getMsbD_eq_getLsbD]
      simp only [show (8 * 4 : Nat) = 32 from rfl, place, set, bit, decide_true, Bool.and_true]

/-- The counted bits end at the first zero when no bit behind it is set. -/
theorem bitsThroughLastOne_eq_iff {v : Word 4} {z : Nat} (ones : ∀ k < z, v.getMsbD k = true)
    (zero : v.getMsbD z = false)
    : bitsThroughLastOne v = z ↔ ∀ k, z < k → v.getMsbD k = false := by
  obtain ⟨-, clear, last⟩ := bitsThroughLastOne_spec v
  constructor
  · rintro rfl k behind
    exact clear k behind.le
  · intro none
    rcases Nat.lt_trichotomy (bitsThroughLastOne v) z with short | same | long
    · have set := ones _ short
      rw [clear _ (Nat.le_refl _)] at set
      cases set
    · exact same
    · have set := last (by omega)
      by_cases next : bitsThroughLastOne v - 1 = z
      · rw [next, zero] at set
        cases set
      · rw [none _ (by omega)] at set
        cases set

-----------------------------------------------------------------------------------------
-- The documented length
-----------------------------------------------------------------------------------------

/-- The number of bits set in front of the first zero. -/
def leadingOnes (memory : List Byte) : Nat :=
  (List.range (8 * memory.length)).findIdx fun k => !bitAt memory k

theorem leadingOnes_spec (memory : List Byte)
    : leadingOnes memory ≤ 8 * memory.length
      ∧ (∀ k < leadingOnes memory, bitAt memory k = true)
      ∧ (leadingOnes memory < 8 * memory.length
        → bitAt memory (leadingOnes memory) = false) := by
  have bound : leadingOnes memory ≤ 8 * memory.length := by
    simpa [leadingOnes] using
      (List.findIdx_le_length : _ ≤ (List.range (8 * memory.length)).length)
  refine ⟨bound, ?_, ?_⟩
  · intro k early
    have set := List.not_of_lt_findIdx early
    simpa using set
  · intro inside
    have found
        : (List.range (8 * memory.length)).findIdx (fun k => !bitAt memory k)
          < (List.range (8 * memory.length)).length := by
      rw [List.length_range]
      exact inside
    have clear := @List.findIdx_getElem _ _ _ found
    rw [List.getElem_range] at clear
    simpa [leadingOnes] using clear

/-- The place of the first zero is the number of leading ones. -/
theorem leadingOnes_eq {memory : List Byte} {z : Nat} (bound : z ≤ 8 * memory.length)
    (ones : ∀ k < z, bitAt memory k = true)
    (zero : z < 8 * memory.length → bitAt memory z = false)
    : leadingOnes memory = z := by
  obtain ⟨most, leading, first⟩ := leadingOnes_spec memory
  rcases Nat.lt_trichotomy (leadingOnes memory) z with short | same | long
  · have set := ones _ short
    rw [first (by omega)] at set
    cases set
  · exact same
  · have set := leading z long
    rw [zero (by omega)] at set
    cases set

/-- The leading ones are as many as those in front of a word and at the start of it, when the word has
a zero.
-/
theorem leadingOnes_in_word {memory : List Byte} {front hole : Nat}
    (ones : ∀ k < front, bitAt memory k = true) (bound : front + hole < 8 * memory.length)
    (missing : bitAt memory (front + hole) = false)
    : ∃ z ≤ hole,
        leadingOnes memory = front + z
        ∧ (∀ k < front + z, bitAt memory k = true)
        ∧ bitAt memory (front + z) = false := by
  obtain ⟨-, leading, first⟩ := leadingOnes_spec memory
  have ahead : leadingOnes memory ≤ front + hole := by
    by_contra late
    have set := leading (front + hole) (by omega)
    rw [missing] at set
    cases set
  have zero := first (by omega)
  have behind : front ≤ leadingOnes memory := by
    by_contra early
    have set := ones (leadingOnes memory) (by omega)
    rw [zero] at set
    cases set
  obtain ⟨z, place⟩ := Nat.exists_eq_add_of_le behind
  rw [place] at leading ahead zero
  exact ⟨z, by omega, place, leading, zero⟩

/-- The length of a mask as it is documented. -/
def maskLength : IPAddress → Nat
  | .unspec => 0
  | .ip4 mask => leadingOnes mask.toList
  | .ip6 mask => leadingOnes mask.toList

/-- In the first word that is not all ones, no bit is set behind a zero. -/
def FirstWordContiguous (memory : List Byte) : Prop :=
  ∀ j k, j < k → k < 8 * memory.length → k / 32 = j / 32 →
    (∀ m < 32 * (j / 32), bitAt memory m = true) →
    bitAt memory j = false → bitAt memory k = false

/-- All the masks of a family that are counted as documented. -/
def CountedAsDocumented : IPAddress → Prop
  | .unspec => True
  | .ip4 mask => FirstWordContiguous mask.toList
  | .ip6 mask => FirstWordContiguous mask.toList

-----------------------------------------------------------------------------------------
-- Counting
-----------------------------------------------------------------------------------------

/-- A word of memory is counted as documented when no bit is set behind its first zero. The words in
front of it are all ones.
-/
theorem count_word_iff {n : Nat} (host : ByteBuffer.Host) (memory : Vector Byte n) {i : Nat}
    (inside : 4 * i + 4 ≤ n) (front : ∀ k < 32 * i, bitAt memory.toList k = true)
    (notFull : ∃ k < 32, bitAt memory.toList (32 * i + k) = false)
    : 32 * i
        + bitsThroughLastOne (ByteBuffer.networkToHost32 host (IPAddress.wordAt host memory i))
        = leadingOnes memory.toList
      ↔ FirstWordContiguous memory.toList := by
  obtain ⟨hole, small, missing⟩ := notFull
  have size : memory.toList.length = n := Vector.length_toList
  have bits (k : Nat) (bit : k < 32)
      : (ByteBuffer.networkToHost32 host (IPAddress.wordAt host memory i)).getMsbD k
        = bitAt memory.toList (32 * i + k) := getMsbD_networkToHost32_wordAt host memory inside bit
  obtain ⟨z, ahead, place, leading, zero⟩ := leadingOnes_in_word front (by omega) missing
  rw [place, Nat.add_left_cancel_iff, bitsThroughLastOne_eq_iff
    (fun k early => by rw [bits k (by omega), leading _ (by omega)])
    (by rw [bits z (by omega), zero])]
  constructor
  · intro none j k order bound same ones clear
    rw [size] at bound
    have word : j / 32 = i := by
      rcases Nat.lt_trichotomy (j / 32) i with before | here | after
      · rw [front j (by omega)] at clear
        cases clear
      · exact here
      · have set := ones (32 * i + z) (by omega)
        rw [zero] at set
        cases set
    have late : z ≤ j - 32 * i := by
      by_contra early
      have set := leading j (by omega)
      rw [clear] at set
      cases set
    have found := none (k - 32 * i) (by omega)
    rw [bits _ (by omega), show 32 * i + (k - 32 * i) = k by omega] at found
    exact found
  · intro contiguous k order
    by_cases bit : k < 32
    · rw [bits k bit]
      exact contiguous (32 * i + z) (32 * i + k) (by omega) (by omega) (by omega)
        (fun m early => front m (by omega)) zero
    · rw [BitVec.getMsbD_eq_getLsbD]
      simp [bit]

/-- Converting a word from network order and back gives the word. -/
theorem hostToNetwork32_networkToHost32 (host : ByteBuffer.Host) (v : Word 4)
    : ByteBuffer.hostToNetwork32 host (ByteBuffer.networkToHost32 host v) = v := by
  have written : ByteBuffer.setBe 4 (ByteBuffer.networkToHost32 host v) = (host.layout 4).spread v :=
    Layout.spread_gather _ (by simp)
  rw [ByteBuffer.hostToNetwork32, ByteBuffer.hostToNetwork, written, Layout.gather_spread]

/-- A word is all ones when its bits are. -/
theorem wordAt_eq_ones_iff {n : Nat} (host : ByteBuffer.Host) (memory : Vector Byte n) {i : Nat}
    (inside : 4 * i + 4 ≤ n)
    : IPAddress.wordAt host memory i = 0xFFFFFFFF
      ↔ ∀ k < 32, bitAt memory.toList (32 * i + k) = true := by
  have bits (k : Nat) (bit : k < 32) := getMsbD_networkToHost32_wordAt host memory inside bit
  have ones
      : ByteBuffer.networkToHost32 host 0xFFFFFFFF = 0xFFFFFFFF
        ∧ ByteBuffer.hostToNetwork32 host 0xFFFFFFFF = 0xFFFFFFFF := by
    cases endianness : host.endianness <;>
      simp only [ByteBuffer.networkToHost32, ByteBuffer.networkToHost, ByteBuffer.hostToNetwork32,
        ByteBuffer.hostToNetwork, ByteBuffer.Host.layout, endianness] <;>
      decide
  constructor
  · intro full k bit
    rw [← bits k bit, full, ones.1]
    exact (by decide : ∀ k < 32, (0xFFFFFFFF : BitVec 32).getMsbD k = true) k bit
  · intro set
    rw [← hostToNetwork32_networkToHost32 host (IPAddress.wordAt host memory i), ← ones.2]
    congr 1
    apply BitVec.eq_of_getMsbD_eq
    intro k bit
    rw [bits k bit, set k bit]
    exact ((by decide : ∀ k < 32, (0xFFFFFFFF : BitVec 32).getMsbD k = true) k bit).symm

/-- A mask of ones only has its whole length, and nothing behind a zero. -/
theorem leadingOnes_of_ones {memory : List Byte}
    (ones : ∀ k < 8 * memory.length, bitAt memory k = true)
    : leadingOnes memory = 8 * memory.length ∧ FirstWordContiguous memory := by
  refine ⟨leadingOnes_eq (Nat.le_refl _) ones fun inside => absurd inside (lt_irrefl _), ?_⟩
  intro j k order bound _ _ clear
  rw [ones j (by omega)] at clear
  cases clear

/-- Counting the words one after the other stops at the last bit set of the first word that is not
all ones.
-/
theorem countIPMaskBits_ip6 (host : ByteBuffer.Host) (mask : Vector Byte 16)
    : (∀ k < 128, bitAt mask.toList k = true) ∧ IPAddress.countIPMaskBits host (.ip6 mask) = 128
      ∨ ∃ i < 4,
        (∀ k < 32 * i, bitAt mask.toList k = true)
        ∧ (∃ k < 32, bitAt mask.toList (32 * i + k) = false)
        ∧ IPAddress.countIPMaskBits host (.ip6 mask)
          = ((32 * i + bitsThroughLastOne
            (ByteBuffer.networkToHost32 host (IPAddress.wordAt host mask i)) : Nat) : Int) := by
  cases found : (List.range 4).find? fun i => IPAddress.wordAt host mask i ≠ 0xFFFFFFFF with
  | none =>
      left
      have full (i : Nat) (word : i < 4) : IPAddress.wordAt host mask i = 0xFFFFFFFF := by
        rw [List.find?_eq_none] at found
        simpa using found i (List.mem_range.mpr word)
      refine ⟨?_, by simp only [IPAddress.countIPMaskBits, found]; rfl⟩
      intro k bit
      have set := (wordAt_eq_ones_iff host mask (by omega)).mp (full (k / 32) (by omega)) (k % 32)
        (by omega)
      rwa [Nat.div_add_mod] at set
  | some i =>
      right
      obtain ⟨notFull, known, full⟩ := List.find?_range_eq_some.mp found
      have word : i < 4 := List.mem_range.mp known
      refine ⟨i, word, ?_, ?_, ?_⟩
      · intro k early
        have isFull : IPAddress.wordAt host mask (k / 32) = 0xFFFFFFFF := by
          simpa using full (k / 32) (by omega)
        have set := (wordAt_eq_ones_iff host mask (by omega)).mp isFull (k % 32) (by omega)
        rwa [Nat.div_add_mod] at set
      · by_contra none
        push Not at none
        have isFull := (@wordAt_eq_ones_iff 16 host mask i (by omega)).mpr fun k bit => by
          simpa using none k bit
        simp [isFull] at notFull
      · simp only [IPAddress.countIPMaskBits, found, Option.getD_some, if_pos word]
        rw [add_bitsThroughLastOne, Nat.mul_comm 32 i]

/-- An IPv4 mask is one word, which may be all ones. -/
theorem countIPMaskBits_ip4_iff (host : ByteBuffer.Host) (mask : Vector Byte 4)
    : IPAddress.countIPMaskBits host (.ip4 mask) = leadingOnes mask.toList
      ↔ FirstWordContiguous mask.toList := by
  have counted
      : IPAddress.countIPMaskBits host (.ip4 mask)
        = ((32 * 0 + bitsThroughLastOne
          (ByteBuffer.networkToHost32 host (IPAddress.wordAt host mask 0)) : Nat) : Int) := by
    rw [add_bitsThroughLastOne]
    rfl
  by_cases full : ∀ k < 32, bitAt mask.toList k = true
  · obtain ⟨leading, contiguous⟩ := @leadingOnes_of_ones mask.toList (by simpa using full)
    obtain ⟨most, clear, -⟩ := bitsThroughLastOne_spec
      (ByteBuffer.networkToHost32 host (IPAddress.wordAt host mask 0))
    have all
        : bitsThroughLastOne
          (ByteBuffer.networkToHost32 host (IPAddress.wordAt host mask 0)) = 32 := by
      by_contra fewer
      have unset := clear _ (Nat.le_refl _)
      rw [getMsbD_networkToHost32_wordAt host mask (by omega) (by omega), full _ (by omega)]
        at unset
      cases unset
    rw [counted, all, leading]
    simpa using contiguous
  · push Not at full
    rw [counted, Nat.cast_inj]
    exact count_word_iff host mask (by omega) (by simp) (by simpa using full)

theorem countIPMaskBits_ip6_iff (host : ByteBuffer.Host) (mask : Vector Byte 16)
    : IPAddress.countIPMaskBits host (.ip6 mask) = leadingOnes mask.toList
      ↔ FirstWordContiguous mask.toList := by
  rcases countIPMaskBits_ip6 host mask with ⟨full, counted⟩ | ⟨i, word, front, notFull, counted⟩
  · obtain ⟨leading, contiguous⟩ := @leadingOnes_of_ones mask.toList (by simpa using full)
    rw [counted, leading]
    simpa using contiguous
  · rw [counted, Nat.cast_inj]
    exact count_word_iff host mask (by omega) front notFull

/-- `count_IP_mask_bits` returns the documented length of a mask exactly when no bit is set behind a
zero in the first 32 bits that are not all ones.
-/
theorem countIPMaskBits_documented_iff (host : ByteBuffer.Host) (mask : IPAddress)
    : IPAddress.countIPMaskBits host mask = maskLength mask ↔ CountedAsDocumented mask := by
  cases mask with
  | unspec => simp [IPAddress.countIPMaskBits, maskLength, CountedAsDocumented]
  | ip4 mask => exact countIPMaskBits_ip4_iff host mask
  | ip6 mask => exact countIPMaskBits_ip6_iff host mask

/-- The mask 255.0.255.0 has 8 bits in front of its first zero and is counted as 24 bits. -/
theorem split_mask_miscounted
    : ¬ ∀ (host : ByteBuffer.Host) (mask : IPAddress),
        IPAddress.countIPMaskBits host mask = maskLength mask := by
  intro documented
  have counted := documented
    ⟨.little, true, fun n => List.replicate n 0, fun _ => List.length_replicate⟩
    (.ip4 #v[255, 0, 255, 0])
  exact absurd counted (by decide)

-----------------------------------------------------------------------------------------
-- Contiguous masks
-----------------------------------------------------------------------------------------

/-- The ones of the mask stand in front of its zeros. -/
def Contiguous (memory : List Byte) : Prop :=
  ∃ length, ∀ k < 8 * memory.length, bitAt memory k = decide (k < length)

/-- The bits of a contiguous mask are those in front of its length, and it is counted as documented.
-/
theorem Contiguous.leading {memory : List Byte} (contiguous : Contiguous memory)
    : FirstWordContiguous memory
      ∧ ∀ k < 8 * memory.length, bitAt memory k = decide (k < leadingOnes memory) := by
  obtain ⟨length, bits⟩ := contiguous
  refine ⟨?_, ?_⟩
  · intro j k order bound _ _ clear
    rw [bits j (by omega), decide_eq_false_iff_not] at clear
    rw [bits k bound, decide_eq_false_iff_not]
    omega
  · have isLength : leadingOnes memory = min length (8 * memory.length) := by
      apply leadingOnes_eq (Nat.min_le_right _ _)
      · intro k early
        rw [bits k (by omega), decide_eq_true_eq]
        omega
      · intro inside
        rw [bits _ inside, decide_eq_false_iff_not]
        omega
    intro k bound
    rw [bits k bound, isLength, decide_eq_decide]
    omega

/-- The bitwise AND of two addresses. -/
def andBytes {n : Nat} (a b : Vector Byte n) : Vector Byte n := .ofFn fun k => a.get k &&& b.get k

theorem bitAt_andBytes {n : Nat} (a b : Vector Byte n) {k : Nat} (inside : k < 8 * n)
    : bitAt (andBytes a b).toList k = (bitAt a.toList k && bitAt b.toList k) := by
  have byte : k / 8 < n := by omega
  have entry : (andBytes a b)[k / 8] = a[k / 8] &&& b[k / 8] := by
    rw [andBytes, Vector.getElem_ofFn]
    rfl
  simp [bitAt, entry, byte, List.getD, BitVec.getMsbD_and]

/-- An address that keeps its bits in front of the length of a contiguous mask is masked by it. -/
theorem eq_and_of_kept {n : Nat} {ip mask masked : Vector Byte n}
    (contiguous : Contiguous mask.toList)
    (kept : ∀ k < 8 * n, bitAt masked.toList k
      = (decide ((k : Int) < leadingOnes mask.toList) && bitAt ip.toList k))
    : masked = andBytes ip mask := by
  obtain ⟨-, bits⟩ := contiguous.leading
  apply eq_of_bitAt
  intro k inside
  rw [kept k inside, bitAt_andBytes ip mask inside, bits k (by simpa using inside),
    Bool.and_comm]
  simp

/-- Truncating an address to the length of a contiguous mask is masking it. -/
theorem truncateIP_mask (host : ByteBuffer.Host)
    : (∀ ip mask : Vector Byte 4, Contiguous mask.toList →
        IPAddress.truncateIP host (.ip4 ip) (IPAddress.countIPMaskBits host (.ip4 mask))
        = .ip4 (andBytes ip mask))
      ∧ ∀ ip mask : Vector Byte 16, Contiguous mask.toList →
        IPAddress.truncateIP host (.ip6 ip) (IPAddress.countIPMaskBits host (.ip6 mask))
        = .ip6 (andBytes ip mask) := by
  constructor
  · intro ip mask contiguous
    have counted := (countIPMaskBits_ip4_iff host mask).mpr contiguous.leading.1
    obtain ⟨masked, truncated, kept⟩ :=
      truncateIP_ip4 host ip (Int.natCast_nonneg (leadingOnes mask.toList))
    rw [counted, truncated, eq_and_of_kept contiguous kept]
  · intro ip mask contiguous
    have counted := (countIPMaskBits_ip6_iff host mask).mpr contiguous.leading.1
    obtain ⟨masked, truncated, kept⟩ :=
      truncateIP_ip6 host ip (Int.natCast_nonneg (leadingOnes mask.toList))
    rw [counted, truncated, eq_and_of_kept contiguous kept]

/-- The mask 255.255.240.0 is contiguous and cuts 192.168.17.5 down to 192.168.16.0. -/
theorem truncateIP_mask_twenty
    : let host : ByteBuffer.Host :=
        ⟨.little, true, fun n => List.replicate n 0, fun _ => List.length_replicate⟩
      IPAddress.truncateIP host (.ip4 #v[192, 168, 17, 5])
        (IPAddress.countIPMaskBits host (.ip4 #v[255, 255, 240, 0]))
      = .ip4 #v[192, 168, 16, 0] := by
  intro host
  exact ((truncateIP_mask host).1 #v[192, 168, 17, 5] #v[255, 255, 240, 0] ⟨20, by decide⟩).trans
    (by decide)

end RtcBase.Networks
