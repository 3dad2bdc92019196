import RtcBase.Networks.Enumeration
import RtcBase.Networks.ChangeDetection
import RtcBase.Networks.OrderIndependence

/-! The network manager as its clients use it: they start and stop updating, the manager enumerates
the interfaces and merges what it finds, signals, and hands its networks out.
-/

namespace RtcBase.Networks

open Library

/-- The signals of `NetworkManager`. -/
inductive ManagerSignal where
  | networksChanged
  | error
  deriving DecidableEq, Repr

/-- A `BasicNetworkManager` with what it inherits. -/
structure UpdatingManager where
  base : NetworkManagerBase
  settings : BasicNetworkManager
  sentFirstUpdate : Bool

/-- `k_max_IPv6_networks`. -/
def maxIPv6Networks : Nat := 5

namespace UpdatingManager

variable (env : Environment) (host : ByteBuffer.Host)

def construct (settings : BasicNetworkManager) : UpdatingManager where
  base := .construct
  settings := settings
  sentFirstUpdate := false

/-- `create_networks(false, ...)` and the merge of what it finds; `interfaces` is what `getifaddrs`
returns, `none` when it fails.
-/
def updateNetworksOnce (manager : UpdatingManager) (interfaces : Option (List IfAddrs))
    : Option (UpdatingManager × List ManagerSignal) :=
  match interfaces with
  | none => some (manager, [.error])
  | some list => do
      let found ← convertIfAddrs env host manager.settings createIfAddrsConverter false
        manager.base.heap list []
      let result ← mergeNetworkList env { manager.base with heap := found.1 } found.2 {}
      if result.changed || !manager.sentFirstUpdate then
        some ({ manager with base := result.manager, sentFirstUpdate := true }, [.networksChanged])
      else
        some ({ manager with base := result.manager }, [])

def startUpdating (manager : UpdatingManager) (interfaces : Option (List IfAddrs))
    : Option (UpdatingManager × List ManagerSignal) :=
  if !manager.sentFirstUpdate then manager.updateNetworksOnce env host interfaces
  else some (manager, [.networksChanged])

def stopUpdating (manager : UpdatingManager) : UpdatingManager :=
  { manager with sentFirstUpdate := false }

/-- One round of the loop in `get_networks`, with the number of IPv6 networks so far. -/
def getNetwork (heap : Heap Network) (state : Nat × List Nat) (o : Nat)
    : Option (Nat × List Nat) := do
  let network ← heap.objects o
  if network.prefixIP.family = .inet6 then
    if state.1 ≥ maxIPv6Networks then some state else some (state.1 + 1, state.2 ++ [o])
  else some (state.1, state.2 ++ [o])

/-- `get_networks`. -/
def getNetworks (manager : UpdatingManager) : Option (List Nat) :=
  (manager.base.networks.foldlM (getNetwork manager.base.heap) (0, [])).map Prod.snd

/-- The destructor deletes the networks of the map. -/
def destroy (manager : UpdatingManager) : Option (Heap Network) :=
  manager.base.networksMap.toList.foldlM (fun heap entry => heap.delete entry.2) manager.base.heap

/-- What clients do, with what the system would report at that moment. -/
inductive Action where
  | start (interfaces : Option (List IfAddrs))
  | stop

def step (manager : UpdatingManager) : Action → Option (UpdatingManager × List ManagerSignal)
  | .start interfaces => manager.startUpdating env host interfaces
  | .stop => some (manager.stopUpdating, [])

end UpdatingManager

-----------------------------------------------------------------------------------------
-- One update
-----------------------------------------------------------------------------------------

section Update

variable {env : Environment} {manager : NetworkManagerBase} {heap : Heap Network}
  {items : List (Nat × Network)} {stats : Stats} {first : Consolidation} {merging : Merging}
  {result : MergeResult} {nets : List Network}

/-- The network at a place is an IPv6 network. -/
def isIPv6 (heap : Heap Network) (o : Nat) : Bool :=
  (heap.objects o).any fun network => network.prefixIP.family = .inet6

variable (env) in
/-- The active networks of a manager are those of an enumeration, with its addresses and, where it
knows them, its adapter types; none of the manager's networks is ignored.
-/
structure Reflects (manager : NetworkManagerBase) (nets : List Network) : Prop where
  registered : Registered env manager
  shown
    : ∀ {key : Text} {network : Network},
        recorded manager key = some network → network.ignored = false
  offers
    : ∀ net ∈ nets,
        ∃ network,
          recorded manager (net.mapKey env) = some network
          ∧ network.active = true
          ∧ network.ips = net.ips
          ∧ newType network net = false
  complete
    : ∀ {key : Text} {network : Network},
        recorded manager key = some network
        → network.active = true
        → ∃ net ∈ nets, net.mapKey env = key

/-- A new manager reflects an enumeration that found nothing. -/
theorem Reflects.construct : Reflects env .construct [] where
  registered := Registered.construct env
  shown found := by simp [recorded, NetworkManagerBase.construct] at found
  offers := by simp
  complete found := by simp [recorded, NetworkManagerBase.construct] at found

/-- With distinct keys, the offers of a call are its networks. -/
theorem offered_iff (distinct : (items.map fun item => item.2.mapKey env).Nodup) {key : Text}
    {offer : Network}
    : offered env items key = some offer
      ↔ ∃ item ∈ items, item.2.mapKey env = key ∧ item.2 = offer := by
  have few := filedUnder_length_le distinct key
  have members (item : Nat × Network)
      : item ∈ filedUnder env items key ↔ item ∈ items ∧ item.2.mapKey env = key := by
    simp [filedUnder]
  cases filed : filedUnder env items key with
  | nil =>
      rw [filed] at members
      simp only [offered, filed, List.head?_nil, Option.map_none]
      constructor
      · intro none
        cases none
      · rintro ⟨item, member, isKey, -⟩
        exact absurd ((members item).mpr ⟨member, isKey⟩) (by simp)
  | cons one rest =>
      obtain rfl : rest = [] := by
        rw [filed] at few
        exact List.length_eq_zero_iff.mp (Nat.le_zero.mp (Nat.le_of_succ_le_succ few))
      rw [filed] at members
      have content : offered env items key = some one.2 := by simp [offered, filed]
      rw [content, Option.some.injEq]
      constructor
      · rintro rfl
        obtain ⟨member, isKey⟩ := (members one).mp (by simp)
        exact ⟨one, member, isKey, rfl⟩
      · rintro ⟨item, member, isKey, rfl⟩
        rw [List.mem_singleton.mp ((members item).mpr ⟨member, isKey⟩)]

/-- So they are in whatever order the call is merged. -/
theorem offered_arranged_iff (distinct : (items.map fun item => item.2.mapKey env).Nodup)
    {key : Text} {offer : Network}
    : offered env (arranged env items) key = some offer
      ↔ ∃ item ∈ items, item.2.mapKey env = key ∧ item.2 = offer := by
  have permuted := arranged_perm env items
  rw [offered_iff ((permuted.map _).nodup_iff.mpr distinct)]
  simp only [permuted.mem_iff]

/-- The records after a call: an offer stands active with its addresses and type, and nothing else
is active.
-/
theorem MergeRun.record_of_offer (run : MergeRun env manager heap items stats first merging result)
    (h : Registered env manager) (handed : HandedOver manager heap items) {key : Text}
    {offer : Network} (found : offered env items key = some offer)
    : ∃ network,
        recorded result.manager key = some network
        ∧ network.active = true
        ∧ network.ips = offer.ips
        ∧ newType network offer = false
        ∧ (network.ignored = offer.ignored
          ∨ ∃ before, recorded manager key = some before ∧ network.ignored = before.ignored) := by
  obtain ⟨id, merged⟩ := (run.table h handed).merged found
  have content
      : (merge id (recorded manager key) offer).ips = offer.ips
        ∧ newType (merge id (recorded manager key) offer) offer = false
        ∧ ((merge id (recorded manager key) offer).ignored = offer.ignored
          ∨ ∃ before,
              recorded manager key = some before
              ∧ (merge id (recorded manager key) offer).ignored = before.ignored) := by
    cases recorded manager key with
    | none => exact ⟨rfl, by simp [merge, newType], .inl rfl⟩
    | some before =>
        refine ⟨rfl, ?_, .inr ⟨before, rfl, rfl⟩⟩
        by_cases differs : newType before offer = true
        · have taken : (merge id (some before) offer).type = offer.type := by
            simp [merge, refresh, differs]
          simp [newType, taken]
        · simp only [merge, refresh, differs]
          simpa [newType] using differs
  cases changed : result.changed with
  | false =>
      have quiet := (run.changed_eq_false h handed).mp changed
      have unnoticed := quiet.unnoticed found
      refine ⟨_, by rw [run.manager_of_unchanged changed, merged], ?_, content.1, content.2.1,
        content.2.2⟩
      cases record : recorded manager key with
      | none => rw [record] at unnoticed; cases unnoticed
      | some before =>
          rw [record] at unnoticed
          exact (notices_eq_false.mp unnoticed).2.2.2
  | true =>
      have same := run.recorded_of_changed h handed changed key
      rw [merged, found, Option.map_some] at same
      obtain ⟨network, record, agrees⟩ := Option.map_eq_some_iff.mp same
      have ips := congrArg Network.ips agrees
      have active := congrArg Network.active agrees
      have type := congrArg Network.type agrees
      have ignored := congrArg Network.ignored agrees
      change network.ips = (merge id (recorded manager key) offer).ips at ips
      change network.active = true at active
      change network.type = (merge id (recorded manager key) offer).type at type
      change network.ignored = (merge id (recorded manager key) offer).ignored at ignored
      refine ⟨network, record, active, ips.trans content.1, ?_, ?_⟩
      · simpa [newType, type] using content.2.1
      · rw [ignored]
        exact content.2.2

/-- A record without an offer is the one from before, not active. -/
theorem MergeRun.record_without_offer
    (run : MergeRun env manager heap items stats first merging result)
    (h : Registered env manager) (handed : HandedOver manager heap items) {key : Text}
    (missing : offered env items key = none) {network : Network}
    (found : recorded result.manager key = some network)
    : network.active = false
      ∧ ∃ before, recorded manager key = some before ∧ network.ignored = before.ignored := by
  have kept := (run.table h handed).kept missing
  cases changed : result.changed with
  | false =>
      have quiet := (run.changed_eq_false h handed).mp changed
      rw [run.manager_of_unchanged changed, kept] at found
      refine ⟨?_, network, found, rfl⟩
      refine Bool.eq_false_iff.mpr fun active => ?_
      obtain ⟨offer, offers⟩ := quiet.all_offered found active
      cases missing.symm.trans offers
  | true =>
      have same := run.recorded_of_changed h handed changed key
      rw [found, kept, missing, Option.map_some] at same
      obtain ⟨before, record, agrees⟩ := Option.map_eq_some_iff.mp same.symm
      have active := congrArg Network.active agrees
      have ignored := congrArg Network.ignored agrees
      exact ⟨active.symm, before, record, ignored.symm⟩

/-- A call leaves the manager reflecting what was handed over. -/
theorem Reflects.merge (reflects : Reflects env manager nets)
    (handed : HandedOver manager heap items)
    (distinct : (items.map fun item => item.2.mapKey env).Nodup)
    (shown : ∀ item ∈ items, item.2.ignored = false)
    : ∃ result,
        mergeNetworkList env { manager with heap := heap } (items.map Prod.fst) {} = some result
        ∧ Reflects env result.manager (items.map Prod.snd) := by
  have h := reflects.registered
  obtain ⟨first, merging, result, merges, run⟩ := mergeNetworkList_run h handed {}
  have permuted := arranged_perm env items
  have handedSorted := handed.perm permuted
  have stage := run.stage h handedSorted
  refine ⟨result, merges, (run.finished stage).registered stage, ?_, ?_, ?_⟩
  · intro key network found
    cases offer : offered env (arranged env items) key with
    | none =>
        obtain ⟨-, before, record, same⟩ := run.record_without_offer h handedSorted offer found
        rw [same, reflects.shown record]
    | some net =>
        obtain ⟨sameNetwork, record, -, -, -, from_⟩ := run.record_of_offer h handedSorted offer
        cases found.symm.trans record
        obtain ⟨item, member, -, rfl⟩ := (offered_arranged_iff distinct).mp offer
        rcases from_ with same | ⟨before, old, same⟩
        · rw [same, shown item member]
        · rw [same, reflects.shown old]
  · intro net isNet
    obtain ⟨item, member, rfl⟩ := List.mem_map.mp isNet
    obtain ⟨network, record, active, ips, type, -⟩ :=
      run.record_of_offer h handedSorted
        ((offered_arranged_iff distinct).mpr ⟨item, member, rfl, rfl⟩)
    exact ⟨network, record, active, ips, type⟩
  · intro key network found active
    cases offer : offered env (arranged env items) key with
    | none =>
        have inactive := (run.record_without_offer h handedSorted offer found).1
        rw [active] at inactive
        cases inactive
    | some net =>
        obtain ⟨item, member, isKey, -⟩ := (offered_arranged_iff distinct).mp offer
        exact ⟨item.2, List.mem_map_of_mem member, isKey⟩

/-- A call that hands over what the manager reflects already changes nothing. -/
theorem Reflects.merge_again (reflects : Reflects env manager nets)
    (handed : HandedOver manager heap items)
    (distinct : (items.map fun item => item.2.mapKey env).Nodup)
    (same : items.map Prod.snd = nets)
    : ∃ result,
        mergeNetworkList env { manager with heap := heap } (items.map Prod.fst) {} = some result
        ∧ result.changed = false
        ∧ result.manager.networks = manager.networks
        ∧ (∀ key : Text, result.manager.networksMap[key]? = manager.networksMap[key]?)
        ∧ ∀ o < manager.heap.next,
            result.manager.heap.objects o = manager.heap.objects o := by
  have h := reflects.registered
  obtain ⟨first, merging, result, merges, run⟩ := mergeNetworkList_run h handed {}
  have permuted := arranged_perm env items
  have handedSorted := handed.perm permuted
  have stage := run.stage h handedSorted
  have table := run.table h handedSorted
  have known {key : Text} {offer : Network}
      (found : offered env (arranged env items) key = some offer)
      : ∃ network,
          recorded manager key = some network
          ∧ network.active = true
          ∧ network.ips = offer.ips
          ∧ newType network offer = false := by
    obtain ⟨item, member, rfl, rfl⟩ := (offered_arranged_iff distinct).mp found
    exact reflects.offers item.2 (same ▸ List.mem_map_of_mem member)
  have quiet : Quiet env manager (arranged env items) := by
    refine ⟨?_, ?_⟩
    · intro key offer found
      obtain ⟨network, record, active, ips, type⟩ := known found
      rw [record]
      exact notices_eq_false.mpr ⟨by rw [ips], by simp [ips], type, active⟩
    · intro key network found active
      obtain ⟨net, isNet, rfl⟩ := reflects.complete found active
      rw [← same] at isNet
      obtain ⟨item, member, rfl⟩ := List.mem_map.mp isNet
      exact ⟨item.2, (offered_arranged_iff distinct).mpr ⟨item, member, rfl, rfl⟩⟩
  have unchanged := (run.changed_eq_false h handedSorted).mpr quiet
  have staged_eq := run.manager_of_unchanged unchanged
  have records (key : Text) : recorded result.manager key = recorded manager key := by
    rw [staged_eq]
    cases offer : offered env (arranged env items) key with
    | none => exact table.kept offer
    | some net =>
        obtain ⟨network, record, -, ips, type⟩ := known offer
        obtain ⟨id, merged⟩ := table.merged offer
        rw [merged, record]
        simp [Networks.merge, refresh, type, ← ips]
  have maps (key : Text) : result.manager.networksMap[key]? = manager.networksMap[key]? := by
    rw [staged_eq]
    change merging.networksMap[key]? = _
    cases filed : manager.networksMap[key]? with
    | some o => exact stage.kept filed
    | none =>
        cases found : merging.networksMap[key]? with
        | none => rfl
        | some o =>
            obtain ⟨item, member, -, isKey⟩ := stage.bound filed found
            obtain ⟨network, record, -⟩ :=
              known ((offered_arranged_iff distinct).mpr
                ⟨item, permuted.mem_iff.mp member, isKey, rfl⟩)
            simp [recorded, filed] at record
  refine ⟨result, merges, unchanged, by rw [staged_eq]; rfl, maps, ?_⟩
  intro o old
  have next := (run.finished stage).registered stage
  cases live : manager.heap.objects o with
  | some network =>
      have record := records (network.mapKey env)
      rw [h.recorded_eq live, recorded, maps, h.adopted live] at record
      exact record
  | none =>
      cases found : result.manager.heap.objects o with
      | none => rfl
      | some network =>
          have adopted := next.adopted found
          rw [maps] at adopted
          obtain ⟨other, filed, -⟩ := h.filed adopted
          cases filed.symm.trans live

/-- Handing out live networks takes all but the IPv6 ones beyond the limit, in order, by induction
on the list with the IPv6 networks so far counted.
-/
theorem foldlM_getNetwork {list : List Nat}
    (live : ∀ o ∈ list, ∃ network, heap.objects o = some network) (count : Nat) (taken : List Nat)
    : ∃ total more,
        list.foldlM (UpdatingManager.getNetwork heap) (count, taken) = some (total, taken ++ more)
        ∧ more.Sublist list
        ∧ more.filter (isIPv6 heap) = (list.filter (isIPv6 heap)).take (maxIPv6Networks - count)
        ∧ more.filter (fun o => !isIPv6 heap o) = list.filter fun o => !isIPv6 heap o := by
  induction list generalizing count taken with
  | nil => exact ⟨count, [], by simp, .slnil, by simp, rfl⟩
  | cons o rest ih =>
      obtain ⟨network, here⟩ := live o (by simp)
      have later := ih fun other member => live other (by simp [member])
      rw [List.foldlM_cons]
      by_cases inet6 : network.prefixIP.family = .inet6
      · have isSix : isIPv6 heap o = true := by simp [isIPv6, here, inet6]
        by_cases full : maxIPv6Networks ≤ count
        · have round : UpdatingManager.getNetwork heap (count, taken) o = some (count, taken) := by
            simp [UpdatingManager.getNetwork, here, inet6, full]
          obtain ⟨total, more, runs, sub, six, four⟩ := later count taken
          refine ⟨total, more, by rw [round]; exact runs, sub.cons o, ?_, by simp [isSix, four]⟩
          have none : maxIPv6Networks - count = 0 := by omega
          rw [six, none, List.take_zero, List.take_zero]
        · have round
              : UpdatingManager.getNetwork heap (count, taken) o
                = some (count + 1, taken ++ [o]) := by
            simp [UpdatingManager.getNetwork, here, inet6, full]
          obtain ⟨total, more, runs, sub, six, four⟩ := later (count + 1) (taken ++ [o])
          refine ⟨total, o :: more, ?_, sub.cons_cons o, ?_, by simp [isSix, four]⟩
          · rw [round]
            simpa using runs
          · have room : maxIPv6Networks - count = maxIPv6Networks - (count + 1) + 1 := by omega
            rw [List.filter_cons_of_pos isSix, List.filter_cons_of_pos isSix, six, room,
              List.take_succ_cons]
      · have notSix : isIPv6 heap o = false := by simp [isIPv6, here, inet6]
        have round
            : UpdatingManager.getNetwork heap (count, taken) o = some (count, taken ++ [o]) := by
          simp [UpdatingManager.getNetwork, here, inet6]
        obtain ⟨total, more, runs, sub, six, four⟩ := later count (taken ++ [o])
        refine ⟨total, o :: more, ?_, sub.cons_cons o, by simp [notSix, six],
          by simp [notSix, four]⟩
        rw [round]
        simpa using runs

/-- Deleting distinct live objects succeeds and deletes these, by induction on the list. -/
theorem foldlM_delete {entries : List (Text × Nat)} (distinct : (entries.map Prod.snd).Nodup)
    (live : ∀ entry ∈ entries, ∃ network, heap.objects entry.2 = some network)
    : ∃ after,
        entries.foldlM (fun heap entry => heap.delete entry.2) heap = some after
        ∧ after.next = heap.next
        ∧ ∀ o,
            after.objects o = if o ∈ entries.map Prod.snd then none else heap.objects o := by
  induction entries generalizing heap with
  | nil => exact ⟨heap, rfl, rfl, by simp⟩
  | cons entry rest ih =>
      obtain ⟨fresh, restDistinct⟩ := List.nodup_cons.mp distinct
      obtain ⟨network, here⟩ := live entry (by simp)
      obtain ⟨middle, deletes, objects, next⟩ := Heap.delete_spec here
      have restLive (other : Text × Nat) (member : other ∈ rest)
          : ∃ network, middle.objects other.2 = some network := by
        have different : other.2 ≠ entry.2 := by
          intro same
          exact fresh (same ▸ List.mem_map_of_mem member)
        rw [objects, Function.update_of_ne different]
        exact live other (by simp [member])
      obtain ⟨after, runs, afterNext, gone⟩ := ih restDistinct restLive
      refine ⟨after, ?_, afterNext.trans next, ?_⟩
      · rw [List.foldlM_cons, deletes]
        exact runs
      · intro o
        rw [gone o, objects]
        by_cases same : o = entry.2
        · subst same
          simp
        · rw [Function.update_of_ne same, List.map_cons]
          simp only [List.mem_cons, same, false_or]

end Update

end RtcBase.Networks
