import RtcBase.Networks.Comparators
import RtcBase.Networks.Records

/-! Whether `merge_network_list` reports a change exactly when the observable networks change. It
does unless a list of addresses is replaced by one of the same length that repeats some of them.
-/

namespace RtcBase.Networks

open Library

/-- What can be seen of an active network: its adapter type and its addresses in any order. -/
def Network.seen (network : Network) : Option (AdapterType × Multiset InterfaceAddress) :=
  if network.active then some (network.type, network.ips) else none

/-- What can be seen of a manager under a key. -/
def observable (manager : NetworkManagerBase) (key : Text)
    : Option (AdapterType × Multiset InterfaceAddress) :=
  (recorded manager key).bind Network.seen

/-- A quiet call that offers some network other addresses than it has. -/
def Masked (env : Environment) (manager : NetworkManagerBase) (items : List (Nat × Network))
    : Prop :=
  Quiet env manager items
  ∧ ∃ key network offer,
      recorded manager key = some network
      ∧ offered env items key = some offer
      ∧ ¬ offer.ips.Perm network.ips

/-- Nothing is noticed when an offer for an active network has as many addresses, all of them
recorded, and no new type.
-/
theorem notices_eq_false {network offer : Network}
    : notices (some network) offer = false
      ↔ offer.ips.length = network.ips.length
        ∧ (∀ ip ∈ offer.ips, ip ∈ network.ips)
        ∧ newType network offer = false
        ∧ network.active = true := by
  simp only [notices, Network.setIPs, Bool.false_or, Bool.or_eq_false_iff, bne_eq_false_iff_eq,
    List.any_eq_false, Bool.not_eq_true, Bool.not_eq_false', List.contains_iff_mem, and_assoc]

/-- A merged network that was active has a type or addresses that can be told from those recorded,
if a difference was noticed.
-/
theorem merge_observable {network offer : Network} (noticed : notices (some network) offer = true)
    (active : network.active = true)
    : ((refresh network offer).type, ((refresh network offer).ips : Multiset InterfaceAddress))
      ≠ (network.type, (network.ips : Multiset InterfaceAddress)) := by
  intro same
  obtain ⟨types, addresses⟩ := Prod.mk.inj same
  have permuted : offer.ips.Perm network.ips := Multiset.coe_eq_coe.mp addresses
  have sameType : newType network offer = false := by
    by_contra differs
    rw [Bool.not_eq_false] at differs
    simp only [refresh, differs, if_true] at types
    simp [newType, types] at differs
  have unnoticed : notices (some network) offer = false :=
    notices_eq_false.mpr
      ⟨permuted.length_eq, fun ip member => permuted.mem_iff.mp member, sameType, active⟩
  rw [noticed] at unnoticed
  cases unnoticed

section Observed

variable {env : Environment} {manager : NetworkManagerBase} {heap : Heap Network}
  {items : List (Nat × Network)} {stats : Stats} {first : Consolidation} {merging : Merging}
  {result : MergeResult}

/-- After a call that reports a change, what can be seen under a key is the merged network, if
there was an offer.
-/
theorem MergeRun.observable_of_changed
    (run : MergeRun env manager heap items stats first merging result)
    (h : Registered env manager) (handed : HandedOver manager heap items)
    (changed : result.changed = true) (key : Text)
    : observable result.manager key
      = (offered env items key).bind fun _ =>
          (recorded (staged manager merging) key).map fun network =>
            (network.type, (network.ips : Multiset InterfaceAddress)) := by
  have same
      : ((recorded result.manager key).map unranked).bind Network.seen
        = ((recorded (staged manager merging) key).map fun network =>
            unranked { network with active := (offered env items key).isSome }).bind
              Network.seen := by
    rw [run.recorded_of_changed h handed changed key]
  rw [Option.bind_map, Option.bind_map] at same
  -- a preference cannot be seen
  change (recorded result.manager key).bind Network.seen = _ at same
  rw [observable, same]
  cases offered env items key with
  | none => cases recorded (staged manager merging) key <;> rfl
  | some offer => cases recorded (staged manager merging) key <;> rfl

/-- A call that reports a change has one: something noticed can be seen, or an active network is
gone.
-/
theorem MergeRun.observable_ne (run : MergeRun env manager heap items stats first merging result)
    (h : Registered env manager) (handed : HandedOver manager heap items)
    (changed : result.changed = true)
    : observable result.manager ≠ observable manager := by
  intro same
  have table := run.table h handed
  have quiet : Quiet env manager items := by
    refine ⟨?_, ?_⟩
    · intro key offer found
      by_contra noticed
      rw [Bool.not_eq_false] at noticed
      obtain ⟨id, merged⟩ := table.merged found
      have seen := congrFun same key
      rw [run.observable_of_changed h handed changed, found, merged] at seen
      cases record : recorded manager key with
      | none => simp [observable, record] at seen
      | some network =>
          rw [record] at noticed
          by_cases active : network.active = true
          · simp only [observable, record, merge, Network.seen, Option.bind_some, Option.map_some, active,
              if_true, Option.some.injEq] at seen
            exact merge_observable noticed active seen
          · simp [observable, record, Network.seen, active] at seen
    · intro key network record active
      by_contra noOffer
      have seen := congrFun same key
      rw [run.observable_of_changed h handed changed] at seen
      cases found : offered env items key with
      | some offer => exact noOffer ⟨offer, found⟩
      | none => simp [found, observable, record, Network.seen, active] at seen
  rw [← run.changed_eq_false h handed, changed] at quiet
  cases quiet

/-- A call that reports no change has none exactly when every offer has the recorded addresses. -/
theorem MergeRun.observable_eq_iff
    (run : MergeRun env manager heap items stats first merging result)
    (h : Registered env manager) (handed : HandedOver manager heap items)
    (unchanged : result.changed = false)
    : observable result.manager = observable manager ↔ ¬ Masked env manager items := by
  have table := run.table h handed
  have quiet := (run.changed_eq_false h handed).mp unchanged
  have known {key : Text} {offer : Network} (found : offered env items key = some offer)
      : ∃ network,
          recorded manager key = some network ∧ notices (some network) offer = false := by
    have unnoticed := quiet.unnoticed found
    cases record : recorded manager key with
    | none =>
        rw [record] at unnoticed
        cases unnoticed
    | some network => exact ⟨network, rfl, by rwa [record] at unnoticed⟩
  have after {key : Text} {network offer : Network} (record : recorded manager key = some network)
      (found : offered env items key = some offer)
      : recorded result.manager key = some (refresh network offer) := by
    obtain ⟨id, merged⟩ := table.merged found
    rw [run.manager_of_unchanged unchanged, merged, record]
    rfl
  constructor
  · intro same ⟨_, key, network, offer, record, found, differ⟩
    have seen := congrFun same key
    obtain ⟨sameNetwork, sameRecord, unnoticed⟩ := known found
    cases record.symm.trans sameRecord
    obtain ⟨-, -, -, active⟩ := notices_eq_false.mp unnoticed
    have stillActive : (refresh network offer).active = true := active
    simp only [observable, after record found, record, Network.seen, Option.bind_some, active,
      stillActive, if_true, Option.some.injEq, Prod.mk.injEq, Multiset.coe_eq_coe] at seen
    exact differ seen.2
  · intro notMasked
    funext key
    cases found : offered env items key with
    | none =>
        rw [observable, run.manager_of_unchanged unchanged, table.kept found]
        rfl
    | some offer =>
        obtain ⟨network, record, unnoticed⟩ := known found
        obtain ⟨-, -, sameType, active⟩ := notices_eq_false.mp unnoticed
        have permuted : offer.ips.Perm network.ips := by
          by_contra differ
          exact notMasked ⟨quiet, key, network, offer, record, found, differ⟩
        have addresses : (offer.ips : Multiset InterfaceAddress) = network.ips :=
          Multiset.coe_eq_coe.mpr permuted
        simp [observable, after record found, record, Network.seen, refresh, active, sameType,
          addresses]

end Observed

/-- In every reachable state, a call reports a change exactly when there is one to be seen, unless
it is masked: the call has exactly the active keys, with as many addresses as recorded and all of
them recorded, but some network's addresses are not those recorded.
-/
theorem change_detection_exact_iff (env : Environment) (earlier : List (List NewNetwork))
    (latest : List NewNetwork)
    : ∃ before result,
        updates env earlier = some before
        ∧ update env before latest = some result
        ∧ ((result.changed = true ↔ observable result.manager ≠ observable before)
          ↔ ¬ Masked env before (arranged env (created env before latest))) := by
  obtain ⟨before, runs, registered, -⟩ := updates_from (Registered.construct env) earlier
  have handed := created_handedOver env before latest
  have handedSorted := handed.perm (arranged_perm env (created env before latest))
  obtain ⟨first, merging, result, merges, run⟩ := mergeNetworkList_run registered handed {}
  refine ⟨before, result, runs, merges, ?_⟩
  cases changed : result.changed with
  | true =>
      have differs := run.observable_ne registered handedSorted changed
      have notQuiet : ¬ Quiet env before (arranged env (created env before latest)) := by
        rw [← run.changed_eq_false registered handedSorted, changed]
        simp
      exact iff_of_true (iff_of_true rfl differs) (fun masked => notQuiet masked.1)
  | false =>
      rw [← run.observable_eq_iff registered handedSorted changed]
      simp

/-- The interface `eth0` with the prefix `10.0.0.0/8` and addresses in it. -/
def eth0Network (hosts : List Byte) (some_host : hosts ≠ []) : NewNetwork :=
  {
    interface ['e', 't', 'h', '0'] with
    ips := hosts.map fun host => ⟨.ip4 #v[10, 0, 0, host], 0⟩
    ips_ne_nil := by simpa using some_host
  }

/-- When `10.0.0.1` twice replaces `10.0.0.1` and `10.0.0.2`, an address is gone and no change is
reported.
-/
theorem change_detection_misses_lost_address
    : ∃ before result,
        updates ip4System [[eth0Network [1, 2] (by decide)]] = some before
        ∧ update ip4System before [eth0Network [1, 1] (by decide)] = some result
        ∧ ¬ (result.changed = true ↔ observable result.manager ≠ observable before) := by
  have evaluated
      : ((updates ip4System [[eth0Network [1, 2] (by decide)]]).bind fun before =>
          (update ip4System before [eth0Network [1, 1] (by decide)]).map fun result =>
            (result.changed,
              decide (observable result.manager ((eth0Network [1, 2] (by decide)).key ip4System)
                = observable before ((eth0Network [1, 2] (by decide)).key ip4System))))
        = some (false, false) := by
    decide +kernel
  obtain ⟨before, runs, later⟩ := Option.bind_eq_some_iff.mp evaluated
  obtain ⟨result, merges, outcome⟩ := Option.map_eq_some_iff.mp later
  refine ⟨before, result, runs, merges, ?_⟩
  simp only [Prod.mk.injEq, decide_eq_false_iff_not] at outcome
  obtain ⟨unchanged, differs⟩ := outcome
  rw [unchanged]
  intro same
  exact Bool.false_ne_true (same.mpr fun equal => differs (congrFun equal _))

end RtcBase.Networks
