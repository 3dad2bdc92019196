import Mathlib.Data.Char
import Mathlib.Data.List.Lex
import RtcBase.Library.StrictOrder
import RtcBase.Networks.Manager

/-! The orders that the manager sorts by. `IPAddress::operator<` and `sort_networks` are strict weak
orders; `compare_networks` is one except for some networks with one name.
-/

namespace RtcBase.Networks

open Library

-----------------------------------------------------------------------------------------
-- Addresses
-----------------------------------------------------------------------------------------

/-- Lists of bytes are compared as the lists of their values, by induction on the first list. -/
theorem map_toNat_lt (a b : List Byte)
    : a.map BitVec.toNat < b.map BitVec.toNat ↔ a < b := by
  induction a generalizing b with
  | nil => cases b <;> simp
  | cons first rest ih =>
      cases b with
      | nil => simp
      | cons first' rest' =>
          simp only [List.map_cons, List.cons_lt_cons_iff, ih, BitVec.lt_def, BitVec.toNat_inj]

/-- The four bytes can be read off the number that they make. -/
theorem hostOrder_injective {a b : Vector Byte 4}
    (same : IPAddress.hostOrder a = IPAddress.hostOrder b)
    : a = b := by
  have bytes := congrArg (Layout.bigEndian 4).spread same
  simp only [IPAddress.hostOrder, ByteBuffer.getBe] at bytes
  rw [Layout.spread_gather _ (Vector.length_toList), Layout.spread_gather _ (Vector.length_toList)]
    at bytes
  exact Vector.toList_inj.mp bytes

/-- The place of an address among all of them: families first. -/
def IPAddress.rank : IPAddress → Nat ×ₗ (Nat ×ₗ List Nat)
  | .unspec => toLex (0, toLex (0, []))
  | .ip4 address => toLex (1, toLex ((hostOrder address).toNat, []))
  | .ip6 address => toLex (2, toLex (0, address.toList.map BitVec.toNat))

/-- `IPAddress::operator<` compares places, by cases on the families. -/
theorem IPAddress.less_iff_rank (a b : IPAddress)
    : a.less b = true ↔ a.rank < b.rank := by
  cases a <;> cases b <;>
    simp [IPAddress.less, IPAddress.rank, Prod.Lex.toLex_lt_toLex, BitVec.lt_def, map_toNat_lt]

/-- No two addresses share a place, by cases on the families. -/
theorem IPAddress.rank_injective {a b : IPAddress} (same : a.rank = b.rank) : a = b := by
  cases a <;> cases b <;> simp [IPAddress.rank] at same ⊢
  · exact hostOrder_injective (BitVec.eq_of_toNat_eq same)
  · exact Vector.toList_inj.mp (List.map_injective_iff.mpr (fun _ _ => BitVec.eq_of_toNat_eq) same)

-----------------------------------------------------------------------------------------
-- The system's sort
-----------------------------------------------------------------------------------------

/-- What `std::sort` promises: the items are in order when the comparison is a strict weak order. -/
def Environment.Sorts (env : Environment) : Prop :=
  ∀ {α : Type} {less : α → α → Bool},
    StrictWeak less → ∀ items : List α, Ordered less (env.sort less items)

/-- A system with IPv4 only, whose `std::sort` is insertion sort. -/
def ip4System : Environment where
  inetNtop
    | .inet, [a, b, c, d] =>
        some (List.intercalate ['.'] ([a, b, c, d].map fun byte => Nat.toDigits 10 byte.toNat))
    | _, _ => none
  sort less items := items.insertionSort fun a b => less b a = false
  sort_perm _ items := List.perm_insertionSort _ items

theorem ip4System_sorts : ip4System.Sorts := fun weak items => weak.ordered_insertionSort items

-----------------------------------------------------------------------------------------
-- compare_networks
-----------------------------------------------------------------------------------------

/-- `compare_networks` compares names, and prefixes where name and prefix length agree. -/
theorem compareNetworks_iff (a b : Network)
    : a.compareNetworks b = true
      ↔ a.name < b.name
        ∨ a.name = b.name
          ∧ a.prefixLength = b.prefixLength
          ∧ a.prefixIP.rank < b.prefixIP.rank := by
  by_cases same : a.prefixLength = b.prefixLength ∧ a.name = b.name
  · simp [Network.compareNetworks, same, IPAddress.less_iff_rank]
  · have apart : ¬ (a.name = b.name ∧ a.prefixLength = b.prefixLength) := fun h => same h.symm
    simp only [Network.compareNetworks, if_neg same, decide_eq_true_eq]
    tauto

/-- Networks that `compare_networks` does not tell apart have one name, and one prefix where they
have one prefix length.
-/
theorem incomparable_compareNetworks (a b : Network)
    : Incomparable Network.compareNetworks a b
      ↔ a.name = b.name ∧ (a.prefixLength = b.prefixLength → a.prefixIP = b.prefixIP) := by
  simp only [Incomparable, ← Bool.not_eq_true, compareNetworks_iff, not_or, not_and, not_lt]
  constructor
  · intro ⟨⟨namesBA, ab⟩, namesAB, ba⟩
    have names : a.name = b.name := le_antisymm namesAB namesBA
    refine ⟨names, ?_⟩
    intro lengths
    exact IPAddress.rank_injective (le_antisymm (ba names.symm lengths.symm) (ab names lengths))
  · intro ⟨names, prefixes⟩
    refine ⟨⟨names.ge, ?_⟩, names.le, ?_⟩
    · intro _ lengths
      rw [prefixes lengths]
    · intro _ lengths
      rw [prefixes lengths.symm]

/-- Three networks with one name, of which the outer ones have one prefix length and different
prefixes, and the middle one another prefix length.
-/
def Straddles (a b c : Network) : Prop :=
  a.name = b.name
  ∧ b.name = c.name
  ∧ a.prefixLength = c.prefixLength
  ∧ b.prefixLength ≠ a.prefixLength
  ∧ a.prefixIP ≠ c.prefixIP

/-- `compare_networks` is transitive, by cases on where the two comparisons differ. -/
theorem compareNetworks_trans {a b c : Network} (first : a.compareNetworks b = true)
    (second : b.compareNetworks c = true)
    : a.compareNetworks c = true := by
  rw [compareNetworks_iff] at first second ⊢
  rcases first with namesAB | ⟨namesAB, lengthsAB, prefixesAB⟩
  · rcases second with namesBC | ⟨namesBC, -, -⟩
    · exact .inl (lt_trans namesAB namesBC)
    · exact .inl (namesBC ▸ namesAB)
  · rcases second with namesBC | ⟨namesBC, lengthsBC, prefixesBC⟩
    · exact .inl (namesAB ▸ namesBC)
    · exact .inr ⟨namesAB.trans namesBC, lengthsAB.trans lengthsBC,
        lt_trans prefixesAB prefixesBC⟩

/-- `compare_networks` is asymmetric. -/
theorem compareNetworks_asymm {a b : Network} (less : a.compareNetworks b = true)
    : b.compareNetworks a = false := by
  rw [← Bool.not_eq_true]
  intro reversed
  have itself := compareNetworks_trans less reversed
  rw [compareNetworks_iff] at itself
  simp at itself

/-- `compare_networks` meets the axioms of a strict weak order at exactly the networks that do not
straddle another prefix length.
-/
theorem compare_networks_strict_weak_iff (a b c : Network)
    : StrictWeakAt Network.compareNetworks a b c ↔ ¬ Straddles a b c := by
  constructor
  · intro h ⟨namesAB, namesBC, outer, middle, prefixes⟩
    have between : Incomparable Network.compareNetworks a c := by
      apply h.incomparable
      · exact (incomparable_compareNetworks a b).mpr ⟨namesAB, fun same => absurd same.symm middle⟩
      · exact (incomparable_compareNetworks b c).mpr
          ⟨namesBC, fun same => absurd (same.trans outer.symm) middle⟩
    exact prefixes (((incomparable_compareNetworks a c).mp between).2 outer)
  · intro apart
    refine ⟨?_, compareNetworks_asymm, compareNetworks_trans, ?_⟩
    · exact ((incomparable_compareNetworks a a).mpr ⟨rfl, fun _ => rfl⟩).1
    · intro ab bc
      rw [incomparable_compareNetworks] at ab bc ⊢
      refine ⟨ab.1.trans bc.1, ?_⟩
      intro outer
      -- either the middle one has the same prefix length too, or the three would straddle it
      by_cases middle : b.prefixLength = a.prefixLength
      · exact (ab.2 middle.symm).trans (bc.2 (middle.trans outer))
      · by_contra prefixes
        exact apart ⟨ab.1, bc.1, outer, middle, prefixes⟩

/-- An interface `eth0` with a prefix. -/
def eth0 (address : Vector Byte 4) (prefixLength : Int) : Network :=
  .construct ip4System ['e', 't', 'h', '0'] [] (.ip4 address) prefixLength .ethernet

/-- `10.0.0.0/8` and `11.0.0.0/8` are both incomparable with `192.168.0.0/16` on one interface, but
not with each other.
-/
theorem compare_networks_not_strict_weak
    : ¬ StrictWeak Network.compareNetworks := by
  intro h
  have between := (h (eth0 #v[10, 0, 0, 0] 8) (eth0 #v[192, 168, 0, 0] 16)
    (eth0 #v[11, 0, 0, 0] 8)).incomparable ⟨by decide, by decide⟩ ⟨by decide, by decide⟩
  exact absurd between.1 (by decide)

-----------------------------------------------------------------------------------------
-- sort_networks
-----------------------------------------------------------------------------------------

/-- The place of a network among the sorted ones. -/
def Network.rank (network : Network) : Nat ×ₗ (Intᵒᵈ ×ₗ (Text)ᵒᵈ) :=
  toLex (network.type.value,
    toLex (OrderDual.toDual network.getBestIP.precedence, OrderDual.toDual network.key))

/-- The values of the enumerators differ. -/
theorem AdapterType.value_injective {a b : AdapterType} (same : a.value = b.value) : a = b := by
  cases a <;> cases b <;> simp [AdapterType.value] at same ⊢

/-- `sort_networks` compares places, by cases on the first difference. -/
theorem sortNetworks_iff_rank (a b : Network)
    : a.sortNetworks b = true ↔ a.rank < b.rank := by
  by_cases types : a.type = b.type
  · by_cases precedences : a.getBestIP.precedence = b.getBestIP.precedence
    · simp [Network.sortNetworks, Network.rank, Prod.Lex.toLex_lt_toLex, types, precedences]
    · simp [Network.sortNetworks, Network.rank, Prod.Lex.toLex_lt_toLex, types, precedences]
  · have values : a.type.value ≠ b.type.value := fun same => types (AdapterType.value_injective same)
    simp [Network.sortNetworks, Network.rank, Prod.Lex.toLex_lt_toLex, types, values]

/-- `sort_networks` is a strict weak order. -/
theorem sortNetworks_strictWeak : StrictWeak Network.sortNetworks :=
  .of_rank Network.rank sortNetworks_iff_rank

/-- `sort_networks` tells networks with different keys apart. -/
theorem key_eq_of_incomparable {a b : Network}
    (same : Incomparable Network.sortNetworks a b)
    : a.key = b.key := by
  have ranks : a.rank = b.rank := by
    rcases lt_trichotomy a.rank b.rank with less | equal | greater
    · exact absurd ((sortNetworks_iff_rank a b).mpr less) (by simp [same.1])
    · exact equal
    · exact absurd ((sortNetworks_iff_rank b a).mpr greater) (by simp [same.2])
  simp only [Network.rank, EmbeddingLike.apply_eq_iff_eq, Prod.mk.injEq] at ranks
  exact ranks.2.2

end RtcBase.Networks
