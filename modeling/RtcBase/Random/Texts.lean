import Mathlib.Algebra.Ring.GeomSum
import RtcBase.ByteBuffer.ByteOrder
import RtcBase.Library.Sampling

/-! Random strings, UUIDs and identifiers, over the bytes that the secure generator fills in. Every
text that can come out comes from the same number of byte sequences.
-/

namespace RtcBase.Random

open Library

/-- A `std::string`. -/
abbrev Text := List Char

/-- `k_base64`. -/
def kBase64 : Text :=
  "ABCDEFGHIJKLMNOPQRSTUVWXYZabcdefghijklmnopqrstuvwxyz0123456789+/".toList

/-- `k_hex`. -/
def kHex : Text := "0123456789abcdef".toList

/-- `k_uuid_digit17`. -/
def kUuidDigit17 : Text := "89ab".toList

/-- `table[byte % table_size]`. -/
def pick (table : Text) (byte : Byte) : Char := table.getD (byte.toNat % table.length) '\x00'

/-- `create_random_string` from a table; `none` is a generator that fails. -/
def createRandomStringFrom {len : Nat} (table : Text) (bytes : Option (Fin len → Byte))
    : Bool × Text :=
  if 256 % table.length ≠ 0 then (false, [])
  else
    match bytes with
    | none => (false, [])
    | some bytes => (true, List.ofFn fun i => pick table (bytes i))

/-- `create_random_string`. -/
def createRandomString {len : Nat} (bytes : Option (Fin len → Byte)) : Bool × Text :=
  createRandomStringFrom kBase64 bytes

/-- The hex digits of the bytes in a range. -/
def hexDigits (bytes : Fin 31 → Byte) (first last : Nat) : Text :=
  (List.range' first (last - first)).map fun i => pick kHex (bytes (Fin.ofNat 31 i))

/-- `create_random_uuid`. -/
def createRandomUuid (bytes : Fin 31 → Byte) : Text :=
  hexDigits bytes 0 8 ++ ['-'] ++ hexDigits bytes 8 12 ++ ['-'] ++ ['4'] ++ hexDigits bytes 12 15
    ++ ['-'] ++ [pick kUuidDigit17 (bytes 15)] ++ hexDigits bytes 16 19 ++ ['-']
    ++ hexDigits bytes 19 31

/-- `create_random_id`: the generator fills the memory of a `uint32_t`. -/
def createRandomId (host : ByteBuffer.Host) (bytes : Fin 4 → Byte) : Word 4 :=
  (host.layout 4).gather (List.ofFn bytes)

/-- `create_random_non_zero_id` on the draws of the generator; `none` is that they were all zero and
the loop goes on.
-/
def createRandomNonZeroId (host : ByteBuffer.Host) : List (Fin 4 → Byte) → Option (Word 4)
  | [] => none
  | bytes :: rest =>
      let id := createRandomId host bytes
      if id = 0 then createRandomNonZeroId host rest else some id

/-- The form of a version 4 UUID, `xxxxxxxx-xxxx-4xxx-yxxx-xxxxxxxxxxxx`, by its places. -/
structure IsUuid4 (uuid : Text) : Prop where
  length : uuid.length = 36
  dashes : ∀ i ∈ [8, 13, 18, 23], uuid[i]? = some '-'
  version : uuid[14]? = some '4'
  variant : ∃ c ∈ kUuidDigit17, uuid[19]? = some c
  digits
    : ∀ i < 36, i ∉ [8, 13, 14, 18, 19, 23] → ∃ c ∈ kHex, uuid[i]? = some c

-----------------------------------------------------------------------------------------
-- Tables
-----------------------------------------------------------------------------------------

/-- A table that divides the bytes evenly and has no entry twice. -/
structure Fair (table : Text) : Prop where
  distinct : table.Nodup
  divides : table.length ∣ 2 ^ 8

theorem kBase64_fair : Fair kBase64 := ⟨by decide, by decide⟩

theorem kHex_fair : Fair kHex := ⟨by decide, by decide⟩

theorem kUuidDigit17_fair : Fair kUuidDigit17 := ⟨by decide, by decide⟩

theorem Fair.card_pick {table : Text} (fair : Fair table) {c : Char} (member : c ∈ table)
    : (Finset.univ.filter fun byte => pick table byte = c).card = 2 ^ 8 / table.length :=
  card_entry _ fair.distinct fair.divides member

theorem Fair.pick_mem {table : Text} (fair : Fair table) (byte : Byte) : pick table byte ∈ table := by
  have positive : 0 < table.length := Nat.pos_of_dvd_of_pos fair.divides (by decide)
  rw [pick, List.getD_eq_getElem _ _ (Nat.mod_lt _ positive)]
  exact List.getElem_mem _

-----------------------------------------------------------------------------------------
-- Strings
-----------------------------------------------------------------------------------------

/-- A string over a fair table comes from as many byte sequences as any other of its length. -/
theorem Fair.card_string {table : Text} (fair : Fair table) {str : Text}
    (listed : ∀ c ∈ str, c ∈ table)
    : (Finset.univ.filter fun bytes : Fin str.length → Byte =>
        createRandomStringFrom table (some bytes) = (true, str)).card
      = (2 ^ 8 / table.length) ^ str.length := by
  have even : ¬ 256 % table.length ≠ 0 := by simpa using Nat.mod_eq_zero_of_dvd fair.divides
  have places
      : (Finset.univ.filter fun bytes : Fin str.length → Byte =>
          createRandomStringFrom table (some bytes) = (true, str))
        = Finset.univ.filter fun bytes : Fin str.length → Byte =>
            (fun i => pick table (bytes i)) = str.get := by
    refine Finset.filter_congr fun bytes _ => ?_
    rw [createRandomStringFrom, if_neg even]
    simp only [Prod.mk.injEq, true_and]
    constructor
    · intro same
      exact List.ofFn_injective (same.trans (List.ofFn_get str).symm)
    · intro same
      rw [same]
      exact List.ofFn_get str
  rw [places, card_places (fun _ => pick table) str.get]
  have each (i : Fin str.length)
      : (Finset.univ.filter fun byte => pick table byte = str.get i).card
        = 2 ^ 8 / table.length :=
    fair.card_pick (listed _ (List.get_mem str i))
  simp only [each, Finset.prod_const, Finset.card_univ, Fintype.card_fin]

-----------------------------------------------------------------------------------------
-- UUIDs
-----------------------------------------------------------------------------------------

/-- The table that the digit of a byte is taken from. -/
def tableAt (i : Fin 31) : Text := if i = 15 then kUuidDigit17 else kHex

/-- The place of a byte's digit in the UUID. -/
def placeOf (i : Fin 31) : Nat :=
  if i < 8 then i else if i < 12 then i + 1 else if i < 15 then i + 3 else if i < 19 then i + 4
  else i + 5

/-- The byte whose digit is at a place of the UUID. -/
def indexAt (k : Nat) : Fin 31 :=
  Fin.ofNat 31
    (if k < 8 then k else if k < 13 then k - 1 else if k < 18 then k - 3 else if k < 23 then k - 4
    else k - 5)

/-- The character at a place of the UUID that has the given digits. -/
def charAt (digits : Fin 31 → Char) (k : Nat) : Char :=
  if k ∈ [8, 13, 18, 23] then '-' else if k = 14 then '4' else digits (indexAt k)

/-- The UUID place by place. -/
theorem createRandomUuid_eq (bytes : Fin 31 → Byte)
    : createRandomUuid bytes
      = (List.range 36).map (charAt fun i => pick (tableAt i) (bytes i)) := by
  rfl

theorem placeOf_spec
    : ∀ i, placeOf i < 36 ∧ placeOf i ∉ [8, 13, 18, 23] ∧ placeOf i ≠ 14 ∧ indexAt (placeOf i) = i
        ∧ (i = 15 ↔ placeOf i = 19) := by
  decide

theorem placeOf_indexAt
    : ∀ k < 36, k ∉ [8, 13, 18, 23] → k ≠ 14 → placeOf (indexAt k) = k := by
  decide

/-- A digit stands at its place. -/
theorem charAt_placeOf (digits : Fin 31 → Char) (i : Fin 31)
    : charAt digits (placeOf i) = digits i := by
  obtain ⟨-, notDash, notVersion, index, -⟩ := placeOf_spec i
  rw [charAt, if_neg notDash, if_neg notVersion, index]

/-- A UUID of version 4 is made of digits from the tables. -/
theorem IsUuid4.eq_map {uuid : Text} (form : IsUuid4 uuid)
    : ∃ digits,
        uuid = (List.range 36).map (charAt digits) ∧ ∀ i, digits i ∈ tableAt i := by
  have at_ {k : Nat} {c : Char} (is : uuid[k]? = some c) : uuid.getD k '-' = c := by
    simp [List.getD, is]
  refine ⟨fun i => uuid.getD (placeOf i) '-', ?_, ?_⟩
  · apply List.ext_getElem
    · simp [form.length]
    · intro k here there
      have small : k < 36 := by simpa using there
      simp only [List.getElem_map, List.getElem_range, charAt]
      split_ifs with dash version
      · exact (List.getElem_eq_iff _).mpr (form.dashes k dash)
      · subst version
        exact (List.getElem_eq_iff _).mpr form.version
      · rw [placeOf_indexAt k small dash version, List.getD_eq_getElem _ _ here]
  · intro i
    obtain ⟨small, notDash, notVersion, -, variant⟩ := placeOf_spec i
    unfold tableAt
    dsimp only
    split_ifs with isVariant
    · obtain ⟨c, member, is⟩ := form.variant
      rw [variant.mp isVariant, at_ is]
      exact member
    · have other : placeOf i ∉ [8, 13, 14, 18, 19, 23] := by
        have notVariant := mt variant.mpr isVariant
        simp_all
      obtain ⟨c, member, is⟩ := form.digits (placeOf i) small other
      rw [at_ is]
      exact member

/-- A UUID that is made of digits from the tables is one of version 4. -/
theorem isUuid4_map {digits : Fin 31 → Char} (tables : ∀ i, digits i ∈ tableAt i)
    : IsUuid4 ((List.range 36).map (charAt digits)) := by
  have at_ {k : Nat} (small : k < 36)
      : ((List.range 36).map (charAt digits))[k]? = some (charAt digits k) := by
    simp [small]
  have digit {k : Nat} (notDash : k ∉ [8, 13, 18, 23]) (notVersion : k ≠ 14)
      : charAt digits k = digits (indexAt k) := by
    rw [charAt, if_neg notDash, if_neg notVersion]
  refine ⟨by simp, ?_, ?_, ?_, ?_⟩
  · intro k dash
    have small : k < 36 := by simp at dash; omega
    rw [at_ small, charAt, if_pos dash]
  · rw [at_ (by omega)]
    rfl
  · exact ⟨digits 15, tables 15, by rw [at_ (by omega)]; rfl⟩
  · intro k small other
    have notDash : k ∉ [8, 13, 18, 23] := by simp_all
    have notVersion : k ≠ 14 := by simp_all
    have notVariant : indexAt k ≠ 15 := by
      intro isVariant
      have place := (placeOf_spec (indexAt k)).2.2.2.2.mp isVariant
      rw [placeOf_indexAt k small notDash notVersion] at place
      simp_all
    have member := tables (indexAt k)
    rw [tableAt, if_neg notVariant] at member
    exact ⟨_, member, by rw [at_ small, digit notDash notVersion]⟩

/-- A UUID of version 4 comes from as many byte sequences as any other. -/
theorem IsUuid4.card_bytes {uuid : Text} (form : IsUuid4 uuid)
    : (Finset.univ.filter fun bytes => createRandomUuid bytes = uuid).card = 64 * 16 ^ 30 := by
  obtain ⟨digits, rfl, tables⟩ := form.eq_map
  have places
      : (Finset.univ.filter fun bytes =>
          createRandomUuid bytes = (List.range 36).map (charAt digits))
        = Finset.univ.filter fun bytes : Fin 31 → Byte =>
            (fun i => pick (tableAt i) (bytes i)) = digits := by
    refine Finset.filter_congr fun bytes _ => ?_
    rw [createRandomUuid_eq]
    constructor
    · intro same
      funext i
      have here := congrArg (fun text => text[placeOf i]?) same
      simp only [List.getElem?_map, List.getElem?_range (placeOf_spec i).1, Option.map_some,
        Option.some.injEq, charAt_placeOf] at here
      exact here
    · intro same
      rw [same]
  have each (i : Fin 31)
      : (Finset.univ.filter fun byte => pick (tableAt i) byte = digits i).card
        = if i = 15 then 64 else 16 := by
    have member := tables i
    unfold tableAt at member ⊢
    split_ifs at member ⊢
    · exact kUuidDigit17_fair.card_pick member
    · exact kHex_fair.card_pick member
  rw [places, card_places (fun i => pick (tableAt i)) digits]
  simp only [each]
  decide

-----------------------------------------------------------------------------------------
-- Identifiers
-----------------------------------------------------------------------------------------

/-- Each identifier has the bytes of its memory and no others. -/
theorem createRandomId_bijective (host : ByteBuffer.Host)
    : Function.Bijective (createRandomId host) := by
  constructor
  · intro first second same
    have spread := congrArg (host.layout 4).spread same
    rw [createRandomId, createRandomId, Layout.spread_gather _ (by simp),
      Layout.spread_gather _ (by simp)] at spread
    exact List.ofFn_injective spread
  · intro id
    refine ⟨fun i => ((host.layout 4).spread id).get (i.cast (by simp)), ?_⟩
    have whole
        : List.ofFn (fun i : Fin 4 => ((host.layout 4).spread id).get (i.cast (by simp)))
          = (host.layout 4).spread id := by
      apply List.ext_getElem
      · rw [List.length_ofFn, Layout.length_spread]
      · intro i _ _
        rw [List.getElem_ofFn]
        rfl
    rw [createRandomId, whole, Layout.gather_spread]

/-- The bytes of an identifier. -/
noncomputable def idBytes (host : ByteBuffer.Host) : (Fin 4 → Byte) ≃ Word 4 :=
  Equiv.ofBijective (createRandomId host) (createRandomId_bijective host)

/-- The loop returns the first identifier that is not zero, by induction on the draws. -/
theorem createRandomNonZeroId_eq (host : ByteBuffer.Host) (draws : List (Fin 4 → Byte))
    : createRandomNonZeroId host draws
      = (draws.find? fun bytes => createRandomId host bytes ≠ 0).map (createRandomId host) := by
  induction draws with
  | nil => rfl
  | cons bytes rest ih =>
      simp only [createRandomNonZeroId]
      by_cases zero : createRandomId host bytes = 0
      · rw [if_pos zero, ih, List.find?_cons_of_neg (by simpa using zero)]
      · rw [if_neg zero, List.find?_cons_of_pos (by simpa using zero), Option.map_some]

/-- The loop goes on exactly as long as it draws zeros. -/
theorem createRandomNonZeroId_eq_none (host : ByteBuffer.Host) (draws : List (Fin 4 → Byte))
    : createRandomNonZeroId host draws = none
      ↔ ∀ bytes ∈ draws, createRandomId host bytes = 0 := by
  rw [createRandomNonZeroId_eq, Option.map_eq_none_iff, List.find?_eq_none]
  simp

/-- The loop returns an identifier exactly if it comes first among those that are not zero. -/
theorem createRandomNonZeroId_eq_some (host : ByteBuffer.Host) (draws : List (Fin 4 → Byte))
    (id : Word 4)
    : createRandomNonZeroId host draws = some id
      ↔ id ≠ 0
        ∧ ∃ zeros bytes rest,
            draws = zeros ++ bytes :: rest
            ∧ (∀ zero ∈ zeros, createRandomId host zero = 0)
            ∧ createRandomId host bytes = id := by
  rw [createRandomNonZeroId_eq, Option.map_eq_some_iff]
  constructor
  · rintro ⟨bytes, found, rfl⟩
    obtain ⟨nonzero, zeros, rest, split, earlier⟩ := List.find?_eq_some_iff_append.mp found
    exact ⟨by simpa using nonzero, zeros, bytes, rest, split, by simpa using earlier, rfl⟩
  · rintro ⟨nonzero, zeros, bytes, rest, split, earlier, rfl⟩
    refine ⟨bytes, List.find?_eq_some_iff_append.mpr ⟨by simpa using nonzero, zeros, rest, split, ?_⟩,
      rfl⟩
    simpa using earlier

/-- Every identifier but zero has as many sequences of draws as there are ways to draw zeros before
it and anything after it: all but the one of zeros alone are shared out among the identifiers.
-/
theorem card_nonZeroId (host : ByteBuffer.Host) (n : Nat) {id : Word 4} (nonzero : id ≠ 0)
    : (Finset.univ.filter fun draws : Fin n → Fin 4 → Byte =>
        createRandomNonZeroId host (List.ofFn draws) = some id).card
      * (2 ^ 32 - 1) + 1 = (2 ^ 32) ^ n := by
  have back (other : Word 4) : createRandomId host ((idBytes host).symm other) = other :=
    (idBytes host).apply_symm_apply other
  have unique (bytes : Fin 4 → Byte) (other : Word 4)
      : createRandomId host bytes = other ↔ bytes = (idBytes host).symm other :=
    (idBytes host).eq_symm_apply.symm
  have found
      : (Finset.univ.filter fun draws : Fin n → Fin 4 → Byte =>
          createRandomNonZeroId host (List.ofFn draws) = some id)
        = Finset.univ.filter fun draws : Fin n → Fin 4 → Byte =>
            (List.ofFn draws).find? (fun bytes => createRandomId host bytes ≠ 0)
              = some ((idBytes host).symm id) := by
    refine Finset.filter_congr fun draws _ => ?_
    rw [createRandomNonZeroId_eq, Option.map_eq_some_iff]
    constructor
    · rintro ⟨bytes, first, same⟩
      rw [first, (unique bytes id).mp same]
    · intro first
      exact ⟨_, first, back id⟩
  have rejected
      : (Finset.univ.filter fun bytes : Fin 4 → Byte =>
          decide (createRandomId host bytes ≠ 0) = false).card = 1 := by
    rw [Finset.card_eq_one]
    refine ⟨(idBytes host).symm 0, ?_⟩
    ext bytes
    rw [Finset.mem_filter, Finset.mem_singleton, ← unique bytes 0]
    simp
  have accepted : decide (createRandomId host ((idBytes host).symm id) ≠ 0) = true := by
    simpa [back] using nonzero
  have words : Fintype.card (Fin 4 → Byte) = 2 ^ 32 := by
    rw [Fintype.card_congr (idBytes host), Fintype.card_congr BitVec.equivFin.toEquiv,
      Fintype.card_fin]
  have counted :=
    @card_first_accepted _ _ _ (fun bytes => createRandomId host bytes ≠ 0) _ accepted n
  have zerosFirst
      : ∑ k ∈ Finset.range n, 1 ^ k * (2 ^ 32) ^ (n - 1 - k)
        = ∑ k ∈ Finset.range n, (2 ^ 32 - 1 + 1) ^ k := by
    rw [← Finset.sum_range_reflect (fun k => (2 ^ 32 - 1 + 1) ^ k) n]
    simp
  have total := geom_sum_mul_add (2 ^ 32 - 1) n
  rw [found, counted, rejected, words, zerosFirst, total]
  norm_num

/-- The loop never returns zero, by induction on the draws. -/
theorem createRandomNonZeroId_ne_zero (host : ByteBuffer.Host) (draws : List (Fin 4 → Byte))
    : createRandomNonZeroId host draws ≠ some 0 := by
  induction draws with
  | nil => simp [createRandomNonZeroId]
  | cons bytes rest ih =>
      simp only [createRandomNonZeroId]
      split_ifs with zero
      · exact ih
      · simpa using zero

/-- From uniform bytes come uniform texts and identifiers: a string over the base64 table comes from
4 to the power of its length of the 256 to that power byte sequences, and only such strings come
out; a UUID of version 4 comes from 64 times 16 to the power 30 of the 256 to the power 31, and only
such UUIDs come out; and an identifier comes out as soon as one is drawn that is not zero, every one
but zero from as many sequences of draws as any other, with a share of 1 in 2^32 - 1 of those that
do not draw zeros alone.
-/
theorem random_texts_uniform (host : ByteBuffer.Host)
    : (∀ str : Text, (∀ c ∈ str, c ∈ kBase64) →
        (Finset.univ.filter fun bytes : Fin str.length → Byte =>
          createRandomString (some bytes) = (true, str)).card = 4 ^ str.length)
      ∧ (∀ (len : Nat) (bytes : Fin len → Byte), ∃ str : Text,
          createRandomString (some bytes) = (true, str)
          ∧ str.length = len
          ∧ ∀ c ∈ str, c ∈ kBase64)
      ∧ (∀ uuid, IsUuid4 uuid →
          (Finset.univ.filter fun bytes => createRandomUuid bytes = uuid).card = 64 * 16 ^ 30)
      ∧ (∀ bytes, IsUuid4 (createRandomUuid bytes))
      ∧ (∀ (n : Nat) (first second : Word 4), first ≠ 0 → second ≠ 0 →
          (Finset.univ.filter fun draws : Fin n → Fin 4 → Byte =>
            createRandomNonZeroId host (List.ofFn draws) = some first).card
          = (Finset.univ.filter fun draws : Fin n → Fin 4 → Byte =>
              createRandomNonZeroId host (List.ofFn draws) = some second).card)
      ∧ (∀ draws, createRandomNonZeroId host draws ≠ some 0)
      ∧ (∀ draws, createRandomNonZeroId host draws = none
          ↔ ∀ bytes ∈ draws, createRandomId host bytes = 0)
      ∧ (∀ draws id, createRandomNonZeroId host draws = some id
          ↔ id ≠ 0
            ∧ ∃ zeros bytes rest,
                draws = zeros ++ bytes :: rest
                ∧ (∀ zero ∈ zeros, createRandomId host zero = 0)
                ∧ createRandomId host bytes = id)
      ∧ ∀ (n : Nat) (id : Word 4), id ≠ 0 →
          (Finset.univ.filter fun draws : Fin n → Fin 4 → Byte =>
              createRandomNonZeroId host (List.ofFn draws) = some id).card
            * (2 ^ 32 - 1) + 1
          = (2 ^ 32) ^ n := by
  refine ⟨?_, ?_, fun _ form => form.card_bytes, ?_, ?_, createRandomNonZeroId_ne_zero host,
    createRandomNonZeroId_eq_none host, createRandomNonZeroId_eq_some host, ?_⟩
  · intro str listed
    exact kBase64_fair.card_string listed
  · intro len bytes
    refine ⟨List.ofFn fun i => pick kBase64 (bytes i), rfl, List.length_ofFn, ?_⟩
    intro c member
    obtain ⟨i, rfl⟩ := (List.mem_ofFn' _ _).mp member
    exact kBase64_fair.pick_mem (bytes i)
  · intro bytes
    rw [createRandomUuid_eq]
    refine isUuid4_map fun i => ?_
    unfold tableAt
    split_ifs
    · exact kUuidDigit17_fair.pick_mem _
    · exact kHex_fair.pick_mem _
  · intro n first second firstNonzero secondNonzero
    have firstCount := card_nonZeroId host n firstNonzero
    have secondCount := card_nonZeroId host n secondNonzero
    omega
  · intro n id nonzero
    exact card_nonZeroId host n nonzero

/-- Witness: the strings `Ab`, one UUID, the identifiers 1 and 2 from three draws, and a zero drawn
before the identifier 2.
-/
theorem random_texts_uniform_samples
    : (Finset.univ.filter fun bytes : Fin 2 → Byte =>
        createRandomString (some bytes) = (true, ['A', 'b'])).card = 16
      ∧ (Finset.univ.filter fun bytes =>
          createRandomUuid bytes = "00112233-4455-4677-8899-aabbccddeeff".toList).card
        = 64 * 16 ^ 30
      ∧ (Finset.univ.filter fun draws : Fin 3 → Fin 4 → Byte =>
          createRandomNonZeroId ⟨.little, true, fun n => List.replicate n 0,
            fun _ => List.length_replicate⟩ (List.ofFn draws) = some 1).card
        = (Finset.univ.filter fun draws : Fin 3 → Fin 4 → Byte =>
            createRandomNonZeroId ⟨.little, true, fun n => List.replicate n 0,
              fun _ => List.length_replicate⟩ (List.ofFn draws) = some 2).card
      ∧ createRandomNonZeroId ⟨.little, true, fun n => List.replicate n 0,
          fun _ => List.length_replicate⟩
          [fun _ => 0, fun i => if i = 0 then 2 else 0, fun i => if i = 0 then 1 else 0]
        = some 2
      ∧ createRandomNonZeroId ⟨.little, true, fun n => List.replicate n 0,
          fun _ => List.length_replicate⟩ [fun _ => 0, fun _ => 0] = none
      ∧ (Finset.univ.filter fun draws : Fin 3 → Fin 4 → Byte =>
          createRandomNonZeroId ⟨.little, true, fun n => List.replicate n 0,
            fun _ => List.length_replicate⟩ (List.ofFn draws) = some 2).card * (2 ^ 32 - 1) + 1
        = (2 ^ 32) ^ 3 := by
  obtain ⟨strings, -, uuids, -, identifiers, -, goesOn, first, counted⟩ :=
    random_texts_uniform
      ⟨.little, true, fun n => List.replicate n 0, fun _ => List.length_replicate⟩
  have digits
      : ∀ i < 36, i ∉ [8, 13, 14, 18, 19, 23] →
          "00112233-4455-4677-8899-aabbccddeeff".toList[i]?.any kHex.contains = true := by decide
  refine ⟨strings ['A', 'b'] ?_, uuids _ ?_, identifiers 3 1 2 (by decide) (by decide), ?_,
    (goesOn _).mpr ?_, counted 3 2 (by decide)⟩
  · exact List.forall_mem_cons.mpr ⟨by decide, List.forall_mem_singleton.mpr (by decide)⟩
  · refine ⟨by decide, by decide, by decide, ⟨'8', by decide, by decide⟩, ?_⟩
    intro i small digit
    obtain ⟨c, there, listed⟩ := (Option.any_eq_true _ _).mp (digits i small digit)
    exact ⟨c, List.contains_iff_mem.mp listed, there⟩
  · refine (first _ 2).mpr ⟨by decide, [fun _ => 0], fun i => if i = 0 then 2 else 0,
      [fun i => if i = 0 then 1 else 0], rfl, List.forall_mem_singleton.mpr rfl, rfl⟩
  · exact List.forall_mem_cons.mpr ⟨rfl, List.forall_mem_singleton.mpr rfl⟩

end RtcBase.Random
