import RtcBase.Networks.Comparators
import RtcBase.Networks.SocketAddress

/-! The order of socket addresses, by which containers keep them: addresses first, then host names
where the address says nothing, then ports.
-/

namespace RtcBase.Networks

open Library

/-- `IPAddress::operator==` compares all that there is to an address, by cases on the families. -/
theorem IPAddress.equal_iff (a b : IPAddress) : a.equal b = true ↔ a = b := by
  cases a <;> cases b <;> simp [IPAddress.equal, Vector.toList_inj]

/-- `IPAddress::operator>` is `operator<` the other way round. -/
theorem IPAddress.greater_eq_less (a b : IPAddress) : a.greater b = b.less a := by
  rw [Bool.eq_iff_iff]
  simp only [IPAddress.greater, Bool.and_eq_true, Bool.not_eq_true', ← Bool.not_eq_true,
    IPAddress.equal_iff, IPAddress.less_iff_rank]
  constructor
  · intro ⟨differ, notLess⟩
    exact lt_of_le_of_ne (not_lt.mp notLess) fun same => differ (rank_injective same.symm)
  · intro reversed
    refine ⟨?_, reversed.asymm⟩
    rintro rfl
    exact lt_irrefl _ reversed

/-- Exactly one of `<`, `==` and `>` holds of two addresses. -/
structure Trichotomous (a b : IPAddress) : Prop where
  one : a.less b = true ∨ a.equal b = true ∨ a.greater b = true
  less_equal : ¬ (a.less b = true ∧ a.equal b = true)
  less_greater : ¬ (a.less b = true ∧ a.greater b = true)
  equal_greater : ¬ (a.equal b = true ∧ a.greater b = true)

/-- Addresses are totally ordered, through their places. -/
theorem IPAddress.trichotomous (a b : IPAddress) : Trichotomous a b := by
  have same : a.equal b = true ↔ a.rank = b.rank :=
    (equal_iff a b).trans ⟨congrArg rank, rank_injective⟩
  have greater : a.greater b = true ↔ b.rank < a.rank := by
    rw [greater_eq_less, less_iff_rank]
  refine ⟨?_, ?_, ?_, ?_⟩
  · rw [less_iff_rank, same, greater]
    exact lt_trichotomy a.rank b.rank
  · rw [less_iff_rank, same]
    exact fun ⟨less, equal⟩ => less.ne equal
  · rw [less_iff_rank, greater]
    exact fun ⟨less, greater⟩ => less.asymm greater
  · rw [same, greater]
    exact fun ⟨equal, greater⟩ => greater.ne equal.symm

namespace SocketAddress

/-- The host name as far as it counts: where the address is unspecified or any address. -/
def countedHostname (address : SocketAddress) : Text :=
  if address.ip.isAny || address.ip.isUnspec then address.hostname else []

/-- The place of a socket address among all of them. -/
def rank (address : SocketAddress) : (Nat ×ₗ (Nat ×ₗ List Nat)) ×ₗ (Text ×ₗ Nat) :=
  toLex (address.ip.rank, toLex (address.countedHostname, address.port.toNat))

/-- `SocketAddress::operator<` compares places, by cases on the first difference. -/
theorem less_iff_rank (a b : SocketAddress) : a.less b = true ↔ a.rank < b.rank := by
  simp only [rank, Prod.Lex.toLex_lt_toLex]
  by_cases ips : a.ip = b.ip
  · have equal : a.ip.equal b.ip = true := (IPAddress.equal_iff _ _).mpr ips
    have ranks : a.ip.rank = b.ip.rank := congrArg IPAddress.rank ips
    cases counted : a.ip.isAny || a.ip.isUnspec with
    | true =>
        have names : a.countedHostname = a.hostname ∧ b.countedHostname = b.hostname := by
          rw [countedHostname, countedHostname, ← ips, if_pos counted, if_pos counted]
          exact ⟨rfl, rfl⟩
        by_cases same : a.hostname = b.hostname
        · simp [less, equal, names, same, ranks, BitVec.lt_def]
        · simp [less, equal, counted, names, same, ranks]
    | false =>
        have names : a.countedHostname = b.countedHostname := by
          have notCounted : ¬ (a.ip.isAny || a.ip.isUnspec) = true := by simp [counted]
          rw [countedHostname, countedHostname, ← ips, if_neg notCounted, if_neg notCounted]
        simp [less, equal, counted, names, ranks, BitVec.lt_def]
  · have differ : a.ip.equal b.ip = false := by
      rw [← Bool.not_eq_true, IPAddress.equal_iff]
      exact ips
    have ranks : a.ip.rank ≠ b.ip.rank := fun same => ips (IPAddress.rank_injective same)
    simp [less, differ, ranks, IPAddress.less_iff_rank]

/-- Two addresses share a place exactly when `operator==` holds of them. -/
theorem equal_iff_rank (a b : SocketAddress) : a.equal b = true ↔ a.rank = b.rank := by
  have ranks : a.ip.rank = b.ip.rank ↔ a.ip = b.ip := ⟨IPAddress.rank_injective, congrArg _⟩
  simp only [equal, equalIPs, equalPorts, Bool.and_eq_true, IPAddress.equal_iff, rank,
    EmbeddingLike.apply_eq_iff_eq, Prod.mk.injEq, ranks, decide_eq_true_eq, BitVec.toNat_inj]
  rw [and_assoc]
  apply and_congr_right
  intro ips
  apply and_congr_left
  intro _
  simp only [countedHostname, ← ips]
  cases a.ip.isAny <;> cases a.ip.isUnspec <;> simp

end SocketAddress

/-- `SocketAddress::operator<` is a strict weak order that leaves exactly the equal addresses
incomparable, over `IPAddress::operator<`, which is a strict total order.
-/
theorem socket_addresses_ordered
    : StrictWeak SocketAddress.less
      ∧ (∀ a b, Incomparable SocketAddress.less a b ↔ a.equal b = true)
      ∧ StrictWeak IPAddress.less
      ∧ (∀ a b, Trichotomous a b)
      ∧ ∀ a b : IPAddress, a.greater b = b.less a := by
  refine ⟨.of_rank SocketAddress.rank SocketAddress.less_iff_rank, ?_,
    .of_rank IPAddress.rank IPAddress.less_iff_rank, IPAddress.trichotomous,
    IPAddress.greater_eq_less⟩
  intro a b
  rw [Incomparable, ← Bool.not_eq_true, ← Bool.not_eq_true, SocketAddress.less_iff_rank,
    SocketAddress.less_iff_rank, SocketAddress.equal_iff_rank, not_lt, not_lt]
  exact ⟨fun both => le_antisymm both.2 both.1, fun same => ⟨same.ge, same.le⟩⟩

end RtcBase.Networks
