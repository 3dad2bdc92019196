import RtcBase.Networks.Updating
import RtcBase.Library.Interleaving

/-! Whole runs of a network manager whose clients start and stop updating while the interfaces
change: what they are signaled, what they are handed out, and what becomes of the network objects.
-/

namespace RtcBase.Networks

open Library

/-- The manager as its clients may think of it: whether it has updated since it was last stopped,
and the enumeration that its networks come from.
-/
structure Subscription where
  sent : Bool
  latest : List IfAddrs

/-- A start enumerates unless it was started already, and always signals: the networks, or that the
enumeration failed.
-/
def Subscription.step (subscription : Subscription)
    : UpdatingManager.Action → Option (Subscription × List ManagerSignal)
  | .start interfaces =>
      if subscription.sent then some (subscription, [.networksChanged])
      else
        match interfaces with
        | none => some (subscription, [.error])
        | some list => some (⟨true, list⟩, [.networksChanged])
  | .stop => some ({ subscription with sent := false }, [])

namespace UpdatingManager

section Runs

variable {env : Environment} {host : ByteBuffer.Host} {settings : BasicNetworkManager}
  {manager : UpdatingManager} {subscription : Subscription}

variable (env host settings) in
/-- The networks that an enumeration makes under the manager's settings. -/
def found (interfaces : List IfAddrs) : List Network :=
  enumerate env host settings createIfAddrsConverter false interfaces

variable (env host settings) in
/-- The manager is as its clients think. -/
structure Serves (manager : UpdatingManager) (subscription : Subscription) : Prop where
  kept : manager.settings = settings
  sent : manager.sentFirstUpdate = subscription.sent
  reflects : Reflects env manager.base (found env host settings subscription.latest)

/-- An update with the networks of an enumeration. -/
theorem updateNetworksOnce_some (serves : Serves env host settings manager subscription)
    (list : List IfAddrs)
    : ∃ result : MergeResult,
        manager.updateNetworksOnce env host (some list)
          = some
              (if result.changed || !manager.sentFirstUpdate then
                ({ manager with base := result.manager, sentFirstUpdate := true },
                  [.networksChanged])
              else ({ manager with base := result.manager }, []))
        ∧ Reflects env result.manager (found env host settings list)
        ∧ (list = subscription.latest
          → result.changed = false
            ∧ result.manager.networks = manager.base.networks
            ∧ (∀ key : Text,
                result.manager.networksMap[key]? = manager.base.networksMap[key]?)
            ∧ ∀ o < manager.base.heap.next,
                result.manager.heap.objects o = manager.base.heap.objects o) := by
  obtain ⟨heap, items, converts, handed, nets, distinct, -, shown⟩ :=
    convertIfAddrs_enumerate env host manager.settings createIfAddrsConverter false manager.base
      list
  obtain ⟨result, merges, reflects⟩ := serves.reflects.merge handed distinct (shown rfl)
  rw [nets, serves.kept] at reflects
  refine ⟨result, ?_, reflects, ?_⟩
  · simp only [updateNetworksOnce, converts, Option.bind_eq_bind, Option.bind_some, merges]
    split_ifs <;> rfl
  · rintro rfl
    rw [serves.kept] at nets
    obtain ⟨same, mergesSame, unchanged⟩ := serves.reflects.merge_again handed distinct nets
    cases merges.symm.trans mergesSame
    exact unchanged

/-- Each action does to the manager what its clients think. -/
theorem step_serves (serves : Serves env host settings manager subscription) (action : Action)
    : ∃ next later,
        manager.step env host action = some next
        ∧ subscription.step action = some later
        ∧ next.2 = later.2
        ∧ Serves env host settings next.1 later.1 := by
  cases action with
  | stop =>
      exact ⟨_, _, rfl, rfl, rfl, serves.kept, rfl, serves.reflects⟩
  | start interfaces =>
      unfold step startUpdating Subscription.step
      cases sent : subscription.sent with
      | true =>
          have started : manager.sentFirstUpdate = true := serves.sent.trans sent
          simp only [started, Bool.not_true, Bool.false_eq_true, if_false, if_true]
          exact ⟨_, _, rfl, rfl, rfl, serves⟩
      | false =>
          have stopped : manager.sentFirstUpdate = false := serves.sent.trans sent
          simp only [stopped, Bool.not_false, Bool.false_eq_true, if_false, if_true]
          cases interfaces with
          | none => exact ⟨_, _, rfl, rfl, rfl, serves⟩
          | some list =>
              obtain ⟨result, updates, reflects, -⟩ := updateNetworksOnce_some serves list
              rw [stopped, Bool.not_false, Bool.or_true, if_pos rfl] at updates
              exact ⟨_, _, updates, rfl, rfl, serves.kept, rfl, reflects⟩

/-- A run of actions, on the manager and as its clients think, by induction on the actions. -/
theorem runs_serve (serves : Serves env host settings manager subscription)
    (actions : List Action)
    : ∃ final reached,
        runSchedule (step env host) manager actions = some final
        ∧ runSchedule Subscription.step subscription actions = some reached
        ∧ final.2 = reached.2
        ∧ Serves env host settings final.1 reached.1 := by
  induction actions generalizing manager subscription with
  | nil => exact ⟨_, _, rfl, rfl, rfl, serves⟩
  | cons action rest ih =>
      obtain ⟨next, later, steps, thinks, same, servesNext⟩ := step_serves serves action
      obtain ⟨final, reached, runs, expects, equal, servesFinal⟩ := ih servesNext
      refine ⟨(final.1, next.2 ++ final.2), (reached.1, later.2 ++ reached.2), ?_, ?_, ?_,
        servesFinal⟩
      · simp [runSchedule, steps, runs]
      · simp [runSchedule, thinks, expects]
      · rw [same, equal]

/-- A new manager is as its clients think. -/
theorem construct_serves (env : Environment) (host : ByteBuffer.Host) (settings : BasicNetworkManager)
    : Serves env host settings (construct settings) ⟨false, []⟩ :=
  ⟨rfl, rfl, Reflects.construct⟩

/-- `get_networks` hands out the listed networks, all but the IPv6 ones beyond the limit. -/
theorem getNetworks_spec (serves : Serves env host settings manager subscription)
    : ∃ list,
        manager.getNetworks = some list
        ∧ list.Sublist manager.base.networks
        ∧ list.filter (isIPv6 manager.base.heap)
          = (manager.base.networks.filter (isIPv6 manager.base.heap)).take maxIPv6Networks
        ∧ list.filter (fun o => !isIPv6 manager.base.heap o)
          = manager.base.networks.filter fun o => !isIPv6 manager.base.heap o := by
  obtain ⟨total, list, runs, sub, six, four⟩ :=
    foldlM_getNetwork serves.reflects.registered.listed 0 []
  refine ⟨list, ?_, sub, by simpa using six, four⟩
  simp [getNetworks, runs]

/-- The destructor deletes every network that is left, so that each one that ever was has been
deleted once.
-/
theorem destroy_spec (serves : Serves env host settings manager subscription)
    : ∃ heap,
        manager.destroy = some heap
        ∧ ∀ o < heap.next, heap.objects o = none ∧ heap.deleted.count o = 1 := by
  have h := serves.reflects.registered
  have entry_live (entry : Text × Nat) (member : entry ∈ manager.base.networksMap.toList)
      : ∃ network, manager.base.heap.objects entry.2 = some network
          ∧ network.mapKey env = entry.1 :=
    h.filed (Std.ExtTreeMap.mem_toList_iff_getElem?_eq_some.mp member)
  have distinct : (manager.base.networksMap.toList.map Prod.snd).Nodup := by
    have keys := Std.ExtTreeMap.distinct_keys_toList (t := manager.base.networksMap)
    rw [List.nodup_iff_pairwise_ne, List.pairwise_map]
    refine keys.imp_of_mem ?_
    intro a b memberA memberB apart same
    obtain ⟨networkA, liveA, keyA⟩ := entry_live a memberA
    obtain ⟨networkB, liveB, keyB⟩ := entry_live b memberB
    rw [same, liveB, Option.some.injEq] at liveA
    rw [← keyA, ← keyB, liveA] at apart
    simp at apart
  obtain ⟨heap, deletes, next, gone⟩ := foldlM_delete distinct fun entry member => by
    obtain ⟨network, live, -⟩ := entry_live entry member
    exact ⟨network, live⟩
  refine ⟨heap, deletes, ?_⟩
  intro o created
  have dead : heap.objects o = none := by
    rw [gone o]
    split_ifs with listed
    · rfl
    · cases live : manager.base.heap.objects o with
      | none => rfl
      | some network =>
          have filed := Std.ExtTreeMap.mem_toList_iff_getElem?_eq_some.mpr (h.adopted live)
          exact absurd (List.mem_map_of_mem (f := Prod.snd) filed) listed
  exact ⟨dead, List.count_eq_one_of_mem heap.deleted_nodup
    (heap.mem_deleted.mpr ⟨created, dead⟩)⟩

/-- Handing out looks at the listed networks only, by induction on the list. -/
theorem foldlM_getNetwork_congr {heap other : Heap Network} {list : List Nat}
    (same : ∀ o ∈ list, other.objects o = heap.objects o) (state : Nat × List Nat)
    : list.foldlM (getNetwork other) state = list.foldlM (getNetwork heap) state := by
  induction list generalizing state with
  | nil => rfl
  | cons o rest ih =>
      have round : getNetwork other state o = getNetwork heap state o := by
        simp [getNetwork, same o (by simp)]
      rw [List.foldlM_cons, List.foldlM_cons, round]
      exact bind_congr fun next => ih (fun later member => same later (by simp [member])) next

/-- Whatever the clients do and the system reports, the manager never touches a deleted network;
every start signals once, an error if it enumerates and the enumeration fails and the networks
otherwise; the active networks are those of the latest enumeration that succeeded, with its
addresses and none of them ignored; `get_networks` hands these out in their order, without the IPv6
networks after the first five; and the destructor leaves every network object that was ever created
deleted exactly once.
-/
theorem network_manager_serves_latest_enumeration (env : Environment) (host : ByteBuffer.Host)
    (settings : BasicNetworkManager) (actions : List Action)
    : ∃ final reached,
        runSchedule (step env host) (construct settings) actions = some final
        ∧ runSchedule Subscription.step ⟨false, []⟩ actions = some reached
        ∧ final.2 = reached.2
        ∧ Reflects env final.1.base (found env host settings reached.1.latest)
        ∧ (∃ list,
            final.1.getNetworks = some list
            ∧ list.Sublist final.1.base.networks
            ∧ list.filter (isIPv6 final.1.base.heap)
              = (final.1.base.networks.filter (isIPv6 final.1.base.heap)).take maxIPv6Networks
            ∧ list.filter (fun o => !isIPv6 final.1.base.heap o)
              = final.1.base.networks.filter fun o => !isIPv6 final.1.base.heap o)
        ∧ ∃ heap,
            final.1.destroy = some heap
            ∧ ∀ o < heap.next, heap.objects o = none ∧ heap.deleted.count o = 1 := by
  obtain ⟨final, reached, runs, expects, same, serves⟩ :=
    runs_serve (construct_serves env host settings) actions
  exact ⟨final, reached, runs, expects, same, serves.reflects, getNetworks_spec serves,
    destroy_spec serves⟩

/-- After any run, enumerating the same interfaces again changes nothing that a client can see: the
map, the list and its order, and every network object with its identifier, preference, addresses and
active state stay as they are, and `get_networks` hands the same objects out.
-/
theorem reenumeration_changes_nothing (env : Environment) (host : ByteBuffer.Host)
    (settings : BasicNetworkManager) (actions : List Action)
    : ∃ final reached again,
        runSchedule (step env host) (construct settings) actions = some final
        ∧ runSchedule Subscription.step ⟨false, []⟩ actions = some reached
        ∧ final.1.updateNetworksOnce env host (some reached.1.latest) = some again
        ∧ again.1.base.networks = final.1.base.networks
        ∧ (∀ key : Text, again.1.base.networksMap[key]? = final.1.base.networksMap[key]?)
        ∧ (∀ o < final.1.base.heap.next,
            again.1.base.heap.objects o = final.1.base.heap.objects o)
        ∧ again.1.getNetworks = final.1.getNetworks := by
  obtain ⟨final, reached, runs, expects, -, serves⟩ :=
    runs_serve (construct_serves env host settings) actions
  obtain ⟨result, updates, -, unchanged⟩ := updateNetworksOnce_some serves reached.1.latest
  obtain ⟨-, networks, map, objects⟩ := unchanged rfl
  have base (sent : Bool)
      : (if (result.changed || !sent) = true then
          (({ final.1 with base := result.manager, sentFirstUpdate := true } : UpdatingManager),
            [ManagerSignal.networksChanged])
        else ({ final.1 with base := result.manager }, [])).1.base = result.manager := by
    split_ifs <;> rfl
  refine ⟨final, reached, _, runs, expects, updates, ?_, ?_, ?_, ?_⟩
  · rw [base, networks]
  · rw [base]
    exact map
  · rw [base]
    exact objects
  · rw [getNetworks, getNetworks, base, networks]
    have same (o : Nat) (listed : o ∈ final.1.base.networks)
        : result.manager.heap.objects o = final.1.base.heap.objects o := by
      obtain ⟨network, live⟩ := serves.reflects.registered.listed o listed
      exact objects o (final.1.base.heap.lt_next live)
    rw [foldlM_getNetwork_congr same]

end Runs

end UpdatingManager

end RtcBase.Networks
