import RtcBase.Networks.IPAddress

/-! Truncation of an address is masking of its bits. The bits of a piece of memory are numbered from
the most significant one of its first byte on, so that the words of an IPv6 address and the address
as one number of 128 bits are views of the same bits.
-/

namespace RtcBase.Networks

open Library

-----------------------------------------------------------------------------------------
-- The bits of a piece of memory
-----------------------------------------------------------------------------------------

/-- A bit of some memory, the most significant one of each byte first. -/
def bitAt (memory : List Byte) (k : Nat) : Bool := (memory.getD (k / 8) 0).getMsbD (k % 8)

/-- A bit of the number that some memory holds in network order is the memory's bit. -/
theorem getMsbD_getBe {n : Nat} (memory : List Byte) {k : Nat} (inside : k < 8 * n)
    : (ByteBuffer.getBe n memory).getMsbD k = bitAt memory k := by
  have byte : (8 * n - 1 - k) / 8 = n - 1 - k / 8 := by omega
  have offset : (8 * n - 1 - k) % 8 = 7 - k % 8 := by omega
  have back : n - 1 - (n - 1 - k / 8) = k / 8 := by omega
  have small : k % 8 < 8 := by omega
  rw [BitVec.getMsbD_eq_getLsbD, ByteBuffer.getBe, Layout.getLsbD_gather _ _ (by omega), byte,
    offset, bitAt, BitVec.getMsbD_eq_getLsbD]
  simp [inside, small, Layout.bigEndian, back]

/-- A bit of a word spread in network order is the word's bit. -/
theorem bitAt_setBe {n : Nat} (v : Word n) {k : Nat} (inside : k < 8 * n)
    : bitAt (ByteBuffer.setBe n v) k = v.getMsbD k := by
  rw [← getMsbD_getBe _ inside, ByteBuffer.getBe, ByteBuffer.setBe, Layout.gather_spread]

/-- Two pieces of memory of one length with the same bits are the same. -/
theorem eq_of_bitAt {n : Nat} {a b : Vector Byte n}
    (same : ∀ k, k < 8 * n → bitAt a.toList k = bitAt b.toList k)
    : a = b := by
  apply Vector.ext
  intro i inside
  apply BitVec.eq_of_getMsbD_eq
  intro k small
  have byte : (8 * i + k) / 8 = i := by omega
  have offset : (8 * i + k) % 8 = k := by omega
  have bits := same (8 * i + k) (by omega)
  simpa [bitAt, byte, offset, inside] using bits

/-- Cleared memory has no bit set. -/
theorem bitAt_replicate_zero (n k : Nat) : bitAt (List.replicate n 0) k = false := by
  by_cases inside : k / 8 < n <;> simp [bitAt, List.getD, inside]

/-- The zero is cleared memory in every layout. -/
theorem spread_zero {n : Nat} (layout : Layout n)
    : layout.spread 0 = List.replicate n 0 := by
  rw [List.eq_replicate_iff]
  exact ⟨layout.length_spread 0, by simp [Layout.spread]⟩

-----------------------------------------------------------------------------------------
-- The words of an address
-----------------------------------------------------------------------------------------

/-- The word that the host reads and converts holds 32 consecutive bits of the memory. -/
theorem getMsbD_networkToHost32_wordAt {n : Nat} (host : ByteBuffer.Host) (memory : Vector Byte n)
    {i k : Nat} (inside : 4 * i + 4 ≤ n) (bit : k < 32)
    : (ByteBuffer.networkToHost32 host (IPAddress.wordAt host memory i)).getMsbD k
      = bitAt memory.toList (32 * i + k) := by
  have whole : (window memory.toList (4 * i) 4).length = 4 := length_window (by simpa using inside)
  have byte : (32 * i + k) / 8 = 4 * i + k / 8 := by omega
  have offset : (32 * i + k) % 8 = k % 8 := by omega
  rw [ByteBuffer.networkToHost32, ByteBuffer.networkToHost, IPAddress.wordAt,
    Layout.spread_gather _ whole, getMsbD_getBe _ (by omega), bitAt, bitAt, byte, offset]
  have early : k / 8 < 4 := by omega
  simp [window, List.getD, early, List.getElem?_drop]

/-- Storing a word changes the bits of its place only. -/
theorem bitAt_setWord {n : Nat} (host : ByteBuffer.Host) (memory : Vector Byte n) (i : Nat)
    (v : Word 4) {k : Nat} (inside : k < 8 * n)
    : bitAt (IPAddress.setWord host memory i v).toList k
      = if k / 32 = i then bitAt ((host.layout 4).spread v) (k % 32)
        else bitAt memory.toList k := by
  have known : k / 8 < n := by omega
  have word : k / 8 / 4 = k / 32 := by omega
  have byte : k % 32 / 8 = k / 8 % 4 := by omega
  have offset : k % 32 % 8 = k % 8 := by omega
  unfold bitAt
  simp only [IPAddress.setWord, Vector.toList_ofFn]
  rw [List.getD_eq_getElem _ _ (by simpa using known)]
  simp only [List.getElem_ofFn, word, byte, offset]
  split
  · rfl
  · rw [List.getD_eq_getElem _ _ (by simpa using known)]
    rfl

/-- Storing a converted word puts its bits in place. -/
theorem bitAt_setWord_hostToNetwork32 {n : Nat} (host : ByteBuffer.Host) (memory : Vector Byte n)
    (i : Nat) (v : Word 4) {k : Nat} (inside : k < 8 * n)
    : bitAt (IPAddress.setWord host memory i (ByteBuffer.hostToNetwork32 host v)).toList k
      = if k / 32 = i then v.getMsbD (k % 32) else bitAt memory.toList k := by
  rw [bitAt_setWord host memory i _ inside, ByteBuffer.hostToNetwork32,
    ByteBuffer.spread_hostToNetwork, bitAt_setBe v (by omega)]

/-- A shifted mask of ones keeps the leading bits of a word. -/
theorem getMsbD_and_mask (v : BitVec 32) {kept k : Nat} (bound : kept ≤ 32)
    : (v &&& (0xFFFFFFFF#32 <<< (32 - kept))).getMsbD k = (decide (k < kept) && v.getMsbD k) := by
  have ones : (0xFFFFFFFF#32) = BitVec.allOnes 32 := by decide
  rw [BitVec.getMsbD_and, ones, BitVec.getMsbD_shiftLeft, BitVec.getMsbD_allOnes, Bool.and_comm]
  congr 1
  simp only [decide_eq_decide]
  omega

/-- The mask cut down from 64 bits is the shifted word. -/
theorem setWidth_innerMask (shift : Nat)
    : (0xFFFFFFFF#64 <<< shift).setWidth 32 = 0xFFFFFFFF#32 <<< shift := by
  rw [BitVec.setWidth_shiftLeft_of_le (by omega)]
  rfl

-----------------------------------------------------------------------------------------
-- Truncation
-----------------------------------------------------------------------------------------

/-- A word of the address that the loop has passed keeps its bits in front of the length, and the
other words stay: in the word that the length ends in by the mask, behind it by the zero.
-/
theorem bitAt_truncateWord (host : ByteBuffer.Host) (length : Nat) (v6addr : Vector Byte 16)
    {i k : Nat} (word : i < 4) (inside : k < 128)
    : bitAt
        (IPAddress.truncateWord host (length / 32)
          ((0xFFFFFFFF#64 <<< (32 - (length - length / 32 * 32))).setWidth 32) v6addr i).toList k
      = if k / 32 = i then (decide (k < length) && bitAt v6addr.toList k)
        else bitAt v6addr.toList k := by
  unfold IPAddress.truncateWord
  split
  case isTrue position =>
    rw [bitAt_setWord_hostToNetwork32 host v6addr i _ (by omega), setWidth_innerMask,
      getMsbD_and_mask _ (by omega),
      getMsbD_networkToHost32_wordAt host v6addr (by omega) (by omega)]
    split
    case isTrue here =>
      have place : 32 * i + k % 32 = k := by omega
      rw [place]
      congr 1
      simp only [decide_eq_decide]
      omega
    case isFalse => rfl
  case isFalse elsewhere =>
    split
    case isTrue behind =>
      rw [bitAt_setWord host v6addr i _ (by omega), spread_zero, bitAt_replicate_zero]
      split
      case isTrue here =>
        have beyond : ¬ k < length := by omega
        simp [beyond]
      case isFalse => rfl
    case isFalse ahead =>
      split
      case isTrue here =>
        have early : k < length := by omega
        simp [early]
      case isFalse => rfl

/-- After the loop went over some words, these are cut off and the others as they were, by
induction on the words.
-/
theorem bitAt_truncateWords (host : ByteBuffer.Host) (length : Nat) (v6addr : Vector Byte 16)
    {k : Nat} (inside : k < 128) (words : List Nat) (known : ∀ i ∈ words, i < 4)
    : bitAt
        (words.foldl
          (IPAddress.truncateWord host (length / 32)
            ((0xFFFFFFFF#64 <<< (32 - (length - length / 32 * 32))).setWidth 32)) v6addr).toList k
      = if k / 32 ∈ words then (decide (k < length) && bitAt v6addr.toList k)
        else bitAt v6addr.toList k := by
  induction words generalizing v6addr with
  | nil => rfl
  | cons i rest ih =>
      have step := bitAt_truncateWord host length v6addr (known i List.mem_cons_self) inside
      rw [List.foldl_cons, ih _ fun j later => known j (List.mem_cons_of_mem _ later), step]
      by_cases here : k / 32 = i <;> by_cases later : k / 32 ∈ rest <;>
        simp [here, later] 

/-- `truncate_IP` of an IPv4 address keeps the bits in front of the length. -/
theorem truncateIP_ip4 (host : ByteBuffer.Host) (address : Vector Byte 4) {length : Int}
    (positive : 0 ≤ length)
    : ∃ masked,
        IPAddress.truncateIP host (.ip4 address) length = .ip4 masked
        ∧ ∀ k, k < 32 →
          bitAt masked.toList k = (decide ((k : Int) < length) && bitAt address.toList k) := by
  obtain ⟨length, rfl⟩ := Int.eq_ofNat_of_zero_le positive
  have sign : ¬ (length : Int) < 0 := by omega
  simp only [IPAddress.truncateIP, sign, if_false, Int.toNat_natCast, Int.ofNat_lt]
  split
  case isTrue long =>
    refine ⟨address, rfl, ?_⟩
    intro k inside
    have early : k < length := by omega
    simp [early]
  case isFalse short =>
    split
    case isTrue empty =>
      refine ⟨_, rfl, ?_⟩
      intro k inside
      rw [IPAddress.inAddr, bitAt_setWord_hostToNetwork32 host _ 0 _ (by omega)]
      have word : k / 32 = 0 := by omega
      simp [word, empty]
    case isFalse =>
      refine ⟨_, rfl, ?_⟩
      intro k inside
      have word : k / 32 = 0 := by omega
      have bit : k % 32 = k := by omega
      rw [IPAddress.inAddr, bitAt_setWord_hostToNetwork32 host _ 0 _ (by omega), if_pos word,
        getMsbD_and_mask _ (by omega),
        getMsbD_networkToHost32_wordAt host address (by omega) (by omega), bit, Nat.mul_zero,
        Nat.zero_add]

/-- `truncate_IP` of an IPv6 address keeps the bits in front of the length. -/
theorem truncateIP_ip6 (host : ByteBuffer.Host) (address : Vector Byte 16) {length : Int}
    (positive : 0 ≤ length)
    : ∃ masked,
        IPAddress.truncateIP host (.ip6 address) length = .ip6 masked
        ∧ ∀ k, k < 128 →
          bitAt masked.toList k = (decide ((k : Int) < length) && bitAt address.toList k) := by
  obtain ⟨length, rfl⟩ := Int.eq_ofNat_of_zero_le positive
  have sign : ¬ (length : Int) < 0 := by omega
  simp only [IPAddress.truncateIP, sign, if_false, Int.toNat_natCast, Int.ofNat_lt]
  split
  case isTrue long =>
    refine ⟨address, rfl, ?_⟩
    intro k inside
    have early : k < length := by omega
    simp [early]
  case isFalse short =>
    split
    case isTrue empty =>
      refine ⟨_, rfl, ?_⟩
      intro k inside
      rw [Vector.toList_replicate, bitAt_replicate_zero]
      simp [empty]
    case isFalse =>
      refine ⟨_, rfl, ?_⟩
      intro k inside
      have word : k / 32 ∈ List.range 4 := by
        rw [List.mem_range]
        omega
      rw [bitAt_truncateWords host length address inside _ fun i => by simp, if_pos word]

/-- Truncating twice keeps the bits in front of both lengths, by the bits of each family. -/
theorem truncateIP_truncateIP (host : ByteBuffer.Host) (ip : IPAddress) {a b : Int}
    (positiveA : 0 ≤ a) (positiveB : 0 ≤ b)
    : IPAddress.truncateIP host (IPAddress.truncateIP host ip a) b
      = IPAddress.truncateIP host ip (min a b) := by
  have positive : 0 ≤ min a b := by omega
  have early (k : Nat)
      : (decide ((k : Int) < b) && decide ((k : Int) < a)) = decide ((k : Int) < min a b) := by
    rw [← Bool.decide_and, decide_eq_decide]
    omega
  cases ip with
  | unspec =>
      simp [IPAddress.truncateIP]
  | ip4 address =>
      obtain ⟨first, firstEq, firstBits⟩ := truncateIP_ip4 host address positiveA
      obtain ⟨second, secondEq, secondBits⟩ := truncateIP_ip4 host first positiveB
      obtain ⟨both, bothEq, bothBits⟩ := truncateIP_ip4 host address positive
      rw [firstEq, secondEq, bothEq, IPAddress.ip4.injEq]
      apply eq_of_bitAt
      intro k inside
      rw [secondBits k inside, firstBits k inside, bothBits k inside, ← Bool.and_assoc, early]
  | ip6 address =>
      obtain ⟨first, firstEq, firstBits⟩ := truncateIP_ip6 host address positiveA
      obtain ⟨second, secondEq, secondBits⟩ := truncateIP_ip6 host first positiveB
      obtain ⟨both, bothEq, bothBits⟩ := truncateIP_ip6 host address positive
      rw [firstEq, secondEq, bothEq, IPAddress.ip6.injEq]
      apply eq_of_bitAt
      intro k inside
      rw [secondBits k inside, firstBits k inside, bothBits k inside, ← Bool.and_assoc, early]

/-- Truncation is masking of bits: the truncated address, read as one number in network order, has
the leading bits of the address up to the length and zeros behind, so that truncating to two lengths
one after the other is truncating to the shorter one.
-/
theorem truncateIP_masks (host : ByteBuffer.Host)
    : (∀ (address : Vector Byte 4) (length : Int), 0 ≤ length →
        ∃ masked,
          IPAddress.truncateIP host (.ip4 address) length = .ip4 masked
          ∧ ∀ k, k < 32 →
            (ByteBuffer.getBe 4 masked.toList).getMsbD k
            = (decide ((k : Int) < min length 32)
              && (ByteBuffer.getBe 4 address.toList).getMsbD k))
      ∧ (∀ (address : Vector Byte 16) (length : Int), 0 ≤ length →
        ∃ masked,
          IPAddress.truncateIP host (.ip6 address) length = .ip6 masked
          ∧ ∀ k, k < 128 →
            (ByteBuffer.getBe 16 masked.toList).getMsbD k
            = (decide ((k : Int) < min length 128)
              && (ByteBuffer.getBe 16 address.toList).getMsbD k))
      ∧ ∀ (ip : IPAddress) (a b : Int), 0 ≤ a → 0 ≤ b →
        IPAddress.truncateIP host (IPAddress.truncateIP host ip a) b
        = IPAddress.truncateIP host ip (min a b) := by
  refine ⟨?_, ?_, fun ip a b => truncateIP_truncateIP host ip⟩
  · intro address length positive
    obtain ⟨masked, truncated, bits⟩ := truncateIP_ip4 host address positive
    refine ⟨masked, truncated, ?_⟩
    intro k inside
    have width : ((k : Int) < min length 32) ↔ (k : Int) < length := by omega
    rw [getMsbD_getBe _ inside, getMsbD_getBe _ inside, bits k inside, decide_eq_decide.mpr width]
  · intro address length positive
    obtain ⟨masked, truncated, bits⟩ := truncateIP_ip6 host address positive
    refine ⟨masked, truncated, ?_⟩
    intro k inside
    have width : ((k : Int) < min length 128) ↔ (k : Int) < length := by omega
    rw [getMsbD_getBe _ inside, getMsbD_getBe _ inside, bits k inside, decide_eq_decide.mpr width]

/-- A site of 192.168.17.5, cut to 24 bits and then to 20. -/
theorem truncateIP_masks_site
    : let host : ByteBuffer.Host :=
        ⟨.little, true, fun n => List.replicate n 0, fun _ => List.length_replicate⟩
      IPAddress.truncateIP host (IPAddress.truncateIP host (.ip4 #v[192, 168, 17, 5]) 24) 20
        = IPAddress.truncateIP host (.ip4 #v[192, 168, 17, 5]) 20
      ∧ IPAddress.truncateIP host (.ip4 #v[192, 168, 17, 5]) 20 = .ip4 #v[192, 168, 16, 0] := by
  intro host
  exact ⟨(truncateIP_masks host).2.2 _ 24 20 (by decide) (by decide), by decide⟩

end RtcBase.Networks
