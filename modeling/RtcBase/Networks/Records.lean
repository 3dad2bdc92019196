import RtcBase.Networks.Registry

/-! The manager seen as a table from keys to networks, and what one call does to that table. A call
offers one network for each of its keys; an offer is adopted under a new key and refreshes the
network that is recorded under a known one.
-/

namespace RtcBase.Networks

open Library

/-- The network that the manager has for a key. -/
def recorded (manager : NetworkManagerBase) (key : Text) : Option Network :=
  manager.networksMap[key]?.bind manager.heap.objects

/-- The network that a call offers for a key: the first one with the key, with the addresses of all
of them.
-/
def offered (env : Environment) (items : List (Nat × Network)) (key : Text) : Option Network :=
  (filedUnder env items key).head?.map fun first =>
    { first.2 with ips := (filedUnder env items key).flatMap fun item => item.2.ips }

/-- The recorded network after an offer. -/
def refresh (network offer : Network) : Network :=
  { network with
    ips := offer.ips
    type := if newType network offer then offer.type else network.type }

/-- What stands under a key after an offer, a new network with the identifier that it gets. -/
def merge (id : BitVec 16) (record : Option Network) (offer : Network) : Network :=
  match record with
  | none => { offer with id := id }
  | some network => refresh network offer

/-- The second loop notices a difference between a record and an offer. -/
def notices (record : Option Network) (offer : Network) : Bool :=
  match record with
  | none => true
  | some network =>
      (network.setIPs offer.ips false).1 || newType network offer || !network.active

/-- A call in which no change is noticed: every offer is for an active network and shows nothing
new, and every active network gets one.
-/
structure Quiet (env : Environment) (manager : NetworkManagerBase) (items : List (Nat × Network))
    : Prop where
  unnoticed
    : ∀ {key : Text} {offer : Network},
        offered env items key = some offer → notices (recorded manager key) offer = false
  all_offered
    : ∀ {key : Text} {network : Network},
        recorded manager key = some network
        → network.active = true
        → ∃ offer, offered env items key = some offer

-----------------------------------------------------------------------------------------
-- The second loop
-----------------------------------------------------------------------------------------

/-- Taking the type over leaves the object with the type that it has then, and every other object
as it is.
-/
theorem takeType_detail {heap : Heap Network} {existing : Nat} {current : Network}
    (live : heap.objects existing = some current) (existingNet net : Network)
    : ∃ retyped,
        takeType heap existing existingNet net = some retyped
        ∧ retyped.objects
          = Function.update heap.objects existing
              (some { current with
                type := if newType existingNet net then net.type else current.type }) := by
  by_cases differs : newType existingNet net = true
  · obtain ⟨retyped, modified, written, -⟩ := Heap.modify_spec live fun network =>
      { network with type := net.type }
    exact ⟨retyped, (if_pos differs).trans modified, by rw [written, if_pos differs]⟩
  · refine ⟨heap, if_neg differs, ?_⟩
    rw [if_neg differs, ← live, Function.update_eq_self]

/-- One round of the second loop, in terms of the record and the offer. -/
theorem mergeEntry_detail {entry : Text × AddressList} {state next : Merging}
    (runs : mergeEntry state entry = some next)
    (distinct
      : ∀ existing, state.networksMap[entry.1]? = some existing → existing ≠ entry.2.net)
    {net : Network} (live : state.heap.objects entry.2.net = some net)
    : next.heap.objects (target state.networksMap entry)
        = some (merge state.nextAvailableNetworkId
            (state.networksMap[entry.1]?.bind state.heap.objects) { net with ips := entry.2.ips })
      ∧ next.changed
        = (state.changed
          || notices (state.networksMap[entry.1]?.bind state.heap.objects)
              { net with ips := entry.2.ips }) := by
  cases known : state.networksMap[entry.1]? with
  | none =>
      obtain ⟨heap, modified, objects, -⟩ := Heap.modify_spec live fun network =>
        ({ network with id := state.nextAvailableNetworkId }.setIPs entry.2.ips true).2
      simp only [mergeEntry, known, modified, Option.bind_eq_bind, Option.bind_some,
        Option.some.injEq] at runs
      subst runs
      refine ⟨?_, by simp [notices]⟩
      simp [target, known, objects, merge, Network.setIPs]
  | some existing =>
      have apart := distinct existing known
      cases found : state.heap.objects existing with
      | none => simp [mergeEntry, known, found] at runs
      | some existingNet =>
          obtain ⟨addressed, setIPs, objects, -⟩ := Heap.modify_spec found fun network =>
            (network.setIPs entry.2.ips true).2
          have readNet : addressed.objects entry.2.net = some net := by
            rw [objects, Function.update_of_ne (Ne.symm apart), live]
          have readExisting := congrFun objects existing
          rw [Function.update_self] at readExisting
          obtain ⟨retyped, typed, written⟩ := takeType_detail readExisting existingNet net
          have stillNet : retyped.objects entry.2.net = some net := by
            rw [written, Function.update_of_ne (Ne.symm apart), readNet]
          obtain ⟨heap, deleted, remaining, -⟩ := Heap.delete_spec stillNet
          simp only [mergeEntry, known, found, setIPs, readNet, Option.bind_eq_bind,
            Option.bind_some, typed, deleteOther, if_pos apart, deleted, Option.some.injEq] at runs
          subst runs
          refine ⟨?_, ?_⟩
          · have isExisting : target state.networksMap entry = existing := by simp [target, known]
            rw [isExisting, remaining, Function.update_of_ne apart, written, Function.update_self]
            simp only [Option.bind_some, found]
            rfl
          · simp only [Option.bind_some, found, notices, Network.setIPs, Bool.false_or, newType,
              Bool.or_assoc]

/-- The second loop with the entries that it has done, in terms of records and offers. -/
structure Detailed (start : Heap Network) (networksMap : Std.ExtTreeMap Text Nat)
    (done : List (Text × AddressList)) (state : Merging)
    : Prop where
  merges
    : ∀ entry ∈ done, ∀ {net : Network},
        start.objects entry.2.net = some net
        → ∃ id,
            state.heap.objects (target networksMap entry)
              = some (merge id (networksMap[entry.1]?.bind start.objects)
                  { net with ips := entry.2.ips })
  changed_iff
    : state.changed = true
      ↔ ∃ entry ∈ done, ∃ net,
          start.objects entry.2.net = some net
          ∧ notices (networksMap[entry.1]?.bind start.objects)
              { net with ips := entry.2.ips } = true

/-- A round of the second loop adds its own entry. -/
theorem Detailed.round {env : Environment} {start : Heap Network}
    {networksMap : Std.ExtTreeMap Text Nat} {done : List (Text × AddressList)}
    {state next : Merging} (h : Detailed start networksMap done state)
    (merged : Merged env start networksMap done state) {entry : Text × AddressList}
    (separate : ∀ other ∈ done, Separate networksMap other entry)
    (apart : ∀ existing, networksMap[entry.1]? = some existing → existing ≠ entry.2.net)
    {net : Network} (live : start.objects entry.2.net = some net)
    (runs : mergeEntry state entry = some next) (effect : EntryEffect env entry state next)
    : Detailed start networksMap (done ++ [entry]) next := by
  obtain ⟨-, lookup, sameTarget, sameNet⟩ := merged.pending separate
  have isTarget : target state.networksMap entry = target networksMap entry := by
    rw [target, target, lookup]
  have sameRecord
      : state.networksMap[entry.1]?.bind state.heap.objects
        = networksMap[entry.1]?.bind start.objects := by
    rw [lookup]
    cases known : networksMap[entry.1]? with
    | none => rfl
    | some existing => simpa [target, known] using sameTarget
  obtain ⟨content, changed⟩ := mergeEntry_detail runs (by rwa [lookup]) (sameNet.trans live)
  rw [isTarget, sameRecord] at content
  rw [sameRecord] at changed
  have frame := effect.frame
  simp only [isTarget] at frame
  refine ⟨?_, ?_⟩
  · intro other member otherNet found
    rcases List.mem_append.mp member with member | isEntry
    · have aside := separate other member
      obtain ⟨id, same⟩ := h.merges other member found
      refine ⟨id, ?_⟩
      rw [frame _ (Ne.symm aside.targets) (Ne.symm aside.target_net), same]
    · obtain rfl := List.mem_singleton.mp isEntry
      cases live.symm.trans found
      exact ⟨_, content⟩
  · rw [changed, Bool.or_eq_true, h.changed_iff]
    constructor
    · intro either
      rcases either with ⟨other, member, facts⟩ | noticed
      · exact ⟨other, by simp [member], facts⟩
      · exact ⟨entry, by simp, net, live, noticed⟩
    · rintro ⟨other, member, otherNet, found, noticed⟩
      rcases List.mem_append.mp member with member | isEntry
      · exact .inl ⟨other, member, otherNet, found, noticed⟩
      · obtain rfl := List.mem_singleton.mp isEntry
        cases live.symm.trans found
        exact .inr noticed

/-- The second loop of a run, in terms of records and offers. -/
theorem MergeRun.detailed {env : Environment} {manager : NetworkManagerBase} {heap : Heap Network}
    {items : List (Nat × Network)} {stats : Stats} {first : Consolidation} {merging : Merging}
    {result : MergeResult}
    (run : MergeRun env manager heap items stats first merging result)
    (h : Registered env manager) (handed : HandedOver manager heap items)
    : Detailed first.heap manager.networksMap first.consolidated.toList merging := by
  obtain ⟨apart, live⟩ := entries_live h handed run.loop
  have separate := entries_separate h handed run.loop
  let invariant (done : List (Text × AddressList)) (state : Merging) : Prop :=
    Merged env first.heap manager.networksMap done state
    ∧ Detailed first.heap manager.networksMap done state
  have start
      : invariant []
          ⟨first.heap, manager.networksMap, manager.nextAvailableNetworkId, [], false⟩ :=
    ⟨⟨by simp, rfl, by simp, by simp, by simp, rfl, by simp⟩, ⟨by simp, by simp⟩⟩
  have loop
      : ∃ final,
          first.consolidated.toList.foldlM mergeEntry
            ⟨first.heap, manager.networksMap, manager.nextAvailableNetworkId, [], false⟩
            = some final
          ∧ invariant first.consolidated.toList final := by
    apply foldlM_invariant start
    intro done entry rest state split ⟨merged, detailed⟩
    have here : entry ∈ first.consolidated.toList := by simp [split]
    have fromEarlier : ∀ other ∈ done, Separate manager.networksMap other entry := by
      intro other member
      rw [split] at separate
      exact (List.pairwise_append.mp separate).2.2 other member entry (by simp)
    obtain ⟨⟨net, liveNet⟩, network, liveTarget⟩ := live entry here
    obtain ⟨next, succeeds, does⟩ :=
      merged.effect fromEarlier (apart entry here) liveNet liveTarget
    exact ⟨next, succeeds, merged.round fromEarlier does,
      detailed.round merged fromEarlier (apart entry here) liveNet succeeds does⟩
  obtain ⟨final, runs, -, detailed⟩ := loop
  cases runs.symm.trans run.merges
  exact detailed

-----------------------------------------------------------------------------------------
-- The table after the two loops
-----------------------------------------------------------------------------------------

/-- A record of a registered manager has its own key. -/
theorem Registered.recorded_key {env : Environment} {manager : NetworkManagerBase}
    (h : Registered env manager) {key : Text} {network : Network}
    (found : recorded manager key = some network)
    : network.mapKey env = key := by
  rw [recorded, Option.bind_eq_some_iff] at found
  obtain ⟨o, filed, live⟩ := found
  obtain ⟨other, found, ownKey⟩ := h.filed filed
  cases live.symm.trans found
  exact ownKey

/-- A live network of a registered manager is recorded under its own key. -/
theorem Registered.recorded_eq {env : Environment} {manager : NetworkManagerBase}
    (h : Registered env manager) {o : Nat} {network : Network}
    (live : manager.heap.objects o = some network)
    : recorded manager (network.mapKey env) = some network := by
  rw [recorded, h.adopted live]
  exact live

/-- A key with an offer is the key of one of the networks. -/
theorem offered_isSome {env : Environment} {items : List (Nat × Network)} {key : Text}
    : (∃ offer, offered env items key = some offer) ↔ ∃ item ∈ items, item.2.mapKey env = key := by
  rw [← Option.isSome_iff_exists, offered, Option.isSome_map, List.isSome_head?]
  simp [filedUnder]

section Table

variable {env : Environment} {manager : NetworkManagerBase} {heap : Heap Network}
  {items : List (Nat × Network)} {stats : Stats} {first : Consolidation} {merging : Merging}
  {result : MergeResult}

/-- An entry of the first loop is an offer. -/
theorem Consolidated.offer (loop : Consolidated env heap items first) (live : Live heap items)
    {entry : Text × AddressList} (member : entry ∈ first.consolidated.toList)
    : ∃ net,
        first.heap.objects entry.2.net = some net
        ∧ offered env items entry.1 = some { net with ips := entry.2.ips } := by
  have found := Std.ExtTreeMap.mem_toList_iff_getElem?_eq_some.mp member
  rw [loop.entries] at found
  have kept := loop.kept found
  rw [gathered, Option.map_eq_some_iff] at found
  obtain ⟨item, head, isAddresses⟩ := found
  have isItem := (List.mem_filter.mp (List.mem_of_head? head)).1
  rw [← isAddresses] at kept ⊢
  exact ⟨item.2, kept.trans (live item isItem), by rw [offered, head, Option.map_some]⟩

/-- An offer is an entry of the first loop. -/
theorem Consolidated.entry_of_offer (loop : Consolidated env heap items first) {key : Text}
    {offer : Network} (found : offered env items key = some offer)
    : ∃ entry ∈ first.consolidated.toList, entry.1 = key :=
  (loop.key_iff key).mpr (offered_isSome.mp ⟨offer, found⟩)

/-- The first loop keeps the records. -/
theorem HandedOver.record (handed : HandedOver manager heap items) (h : Registered env manager)
    (loop : Consolidated env heap items first) (key : Text)
    : manager.networksMap[key]?.bind first.heap.objects = recorded manager key := by
  cases filed : manager.networksMap[key]? with
  | none => simp [recorded, filed]
  | some o =>
      obtain ⟨network, live, -⟩ := h.filed filed
      simp only [recorded, filed, Option.bind_some]
      exact handed.old loop (manager.heap.lt_next live)

/-- What the two loops do to the table: a key without an offer keeps its record, and the others
have theirs merged with the offer.
-/
structure TableEffect (env : Environment) (manager : NetworkManagerBase)
    (items : List (Nat × Network)) (merging : Merging)
    : Prop where
  kept
    : ∀ {key : Text},
        offered env items key = none
        → recorded (staged manager merging) key = recorded manager key
  merged
    : ∀ {key : Text} {offer : Network},
        offered env items key = some offer
        → ∃ id, recorded (staged manager merging) key = some (merge id (recorded manager key) offer)
  changed_iff
    : merging.changed = true
      ↔ ∃ key offer,
          offered env items key = some offer ∧ notices (recorded manager key) offer = true

/-- A run has the effect on the table. -/
theorem MergeRun.table (run : MergeRun env manager heap items stats first merging result)
    (h : Registered env manager) (handed : HandedOver manager heap items)
    : TableEffect env manager items merging := by
  have detailed := run.detailed h handed
  have separate := entries_separate h handed run.loop
  refine ⟨?_, ?_, ?_⟩
  · intro key noOffer
    have notEntry : ¬ ∃ entry ∈ first.consolidated.toList, entry.1 = key := by
      rw [run.loop.key_iff, ← offered_isSome, noOffer]
      simp
    cases filed : manager.networksMap[key]? with
    | none =>
        have stillNone : merging.networksMap[key]? = none := by
          by_contra present
          obtain ⟨o, found⟩ := Option.ne_none_iff_exists'.mp present
          rcases run.merged.filed_cases found with known | ⟨-, entry, member, isKey, -⟩
          · cases known.symm.trans filed
          · exact notEntry ⟨entry, member, isKey⟩
        simp [recorded, staged, filed, stillNone]
    | some o =>
        obtain ⟨network, live, ownKey⟩ := h.filed filed
        have still := untouched h handed run.loop run.merged live (by rwa [ownKey])
        have stillFiled : merging.networksMap[key]? = some o := by
          rw [run.merged.filed, filed, Option.some_or]
        simp [recorded, staged, filed, stillFiled, live, still]
  · intro key offer found
    obtain ⟨entry, member, rfl⟩ := run.loop.entry_of_offer found
    obtain ⟨net, live, isOffer⟩ := run.loop.offer handed.live member
    cases found.symm.trans isOffer
    obtain ⟨id, content⟩ := detailed.merges entry member live
    rw [handed.record h run.loop] at content
    refine ⟨id, ?_⟩
    simp only [recorded, staged, run.merged.lookup separate member, Option.bind_some]
    exact content
  · rw [detailed.changed_iff]
    constructor
    · rintro ⟨entry, member, net, live, noticed⟩
      obtain ⟨sameNet, sameLive, isOffer⟩ := run.loop.offer handed.live member
      cases live.symm.trans sameLive
      rw [handed.record h run.loop] at noticed
      exact ⟨entry.1, _, isOffer, noticed⟩
    · rintro ⟨key, offer, found, noticed⟩
      obtain ⟨entry, member, rfl⟩ := run.loop.entry_of_offer found
      obtain ⟨net, live, isOffer⟩ := run.loop.offer handed.live member
      cases found.symm.trans isOffer
      rw [← handed.record h run.loop] at noticed
      exact ⟨entry, member, net, live, noticed⟩

-----------------------------------------------------------------------------------------
-- The end of a call
-----------------------------------------------------------------------------------------

/-- The merged list holds the network of a key exactly when the key has an offer. -/
theorem Stage.merged_offered (stage : Stage env manager items merging) {key : Text} {o : Nat}
    (filed : merging.networksMap[key]? = some o)
    : o ∈ merging.mergedList ↔ ∃ offer, offered env items key = some offer := by
  rw [stage.merged_iff, offered_isSome]
  constructor
  · intro ⟨item, isItem, found⟩
    obtain ⟨network, live, ownKey⟩ := stage.filed filed
    obtain ⟨sameNetwork, sameLive, itemKey⟩ := stage.filed found
    cases live.symm.trans sameLive
    exact ⟨item, isItem, itemKey.symm.trans ownKey⟩
  · intro ⟨item, isItem, ownKey⟩
    exact ⟨item, isItem, by rw [ownKey, filed]⟩

/-- A call reports a change unless it is quiet. -/
theorem MergeRun.changed_eq_false (run : MergeRun env manager heap items stats first merging result)
    (h : Registered env manager) (handed : HandedOver manager heap items)
    : result.changed = false ↔ Quiet env manager items := by
  have stage := run.stage h handed
  have table := run.table h handed
  rw [run.changed, Bool.or_eq_false_iff, bne_eq_false_iff_eq]
  constructor
  · intro ⟨same, sameLength⟩
    have listed := (stage.quiet same).1
    have permuted : merging.mergedList.Perm manager.networks :=
      (stage.distinct.subperm listed).perm_of_length_le (Nat.le_of_eq sameLength.symm)
    refine ⟨?_, ?_⟩
    · intro key offer found
      by_contra noticed
      have changed := table.changed_iff.mpr ⟨key, offer, found, by simpa using noticed⟩
      rw [same] at changed
      cases changed
    · intro key network found active
      rw [recorded, Option.bind_eq_some_iff] at found
      obtain ⟨o, filed, live⟩ := found
      apply (stage.merged_offered (stage.kept filed)).mp
      exact permuted.mem_iff.mpr ((h.active_iff live).mp active)
  · intro quiet
    have same : merging.changed = false := by
      rw [← Bool.not_eq_true, table.changed_iff]
      intro ⟨key, offer, found, noticed⟩
      rw [quiet.unnoticed found] at noticed
      cases noticed
    refine ⟨same, ?_⟩
    apply List.Perm.length_eq
    rw [List.perm_ext_iff_of_nodup stage.distinct h.distinct]
    intro o
    refine ⟨(stage.quiet same).1 o, ?_⟩
    intro listed
    obtain ⟨network, live⟩ := h.listed o listed
    have offer := quiet.all_offered (h.recorded_eq live) ((h.active_iff live).mpr listed)
    exact (stage.merged_offered (stage.kept (h.adopted live))).mpr offer

/-- A call that reports no change leaves what the two loops leave. -/
theorem MergeRun.manager_of_unchanged
    (run : MergeRun env manager heap items stats first merging result)
    (same : result.changed = false)
    : result.manager = staged manager merging := by
  have ends := run.ends
  rw [same] at ends
  exact (Option.some.inj ends).symm

/-- The end of a call that reports a change: active states are reset, which leaves a heap to sort
the merged list on, and preferences are assigned in the new order.
-/
structure Resorted (env : Environment) (merging : Merging) (heap : Heap Network)
    (after : NetworkManagerBase)
    : Prop where
  reset
    : ∀ o,
        heap.objects o
          = (merging.heap.objects o).map fun network =>
              { network with active := merging.mergedList.contains o }
  sorts : sortObjects env heap Network.sortNetworks merging.mergedList = some after.networks
  assigns : assignPreferences heap highestNetworkPreference after.networks = some after.heap
  networksMap : after.networksMap = merging.networksMap

/-- A call that reports a change ends so. -/
theorem MergeRun.resorted (run : MergeRun env manager heap items stats first merging result)
    (h : Registered env manager) (handed : HandedOver manager heap items)
    (changed : result.changed = true)
    : ∃ reset, Resorted env merging reset result.manager := by
  obtain ⟨reset, runs, objects, -⟩ := (run.stage h handed).reset
  have ends := run.ends
  simp only [changed, applyChanges, staged, if_true, runs, Option.bind_eq_bind, Option.bind_some,
    Option.bind_eq_some_iff, Option.some.injEq] at ends
  obtain ⟨networks, sorts, final, assigns, same⟩ := ends
  refine ⟨reset, ?_⟩
  rw [← same]
  exact ⟨objects, sorts, assigns, rfl⟩

/-- The merged networks are live while they are sorted. -/
theorem Resorted.listed {reset : Heap Network} {after : NetworkManagerBase}
    (resorted : Resorted env merging reset after) (stage : Stage env manager items merging)
    : ∃ listed : List (Nat × Network),
        listed.map Prod.fst = merging.mergedList
        ∧ Live reset listed
        ∧ after.networks
          = (env.sort (fun a b => a.2.sortNetworks b.2) listed).map Prod.fst := by
  obtain ⟨listed, references, isLive⟩ := exists_live (stage.merged_live resorted.reset)
  have sorts := resorted.sorts
  rw [← references, sortObjects_eq env Network.sortNetworks isLive] at sorts
  exact ⟨listed, references, isLive, (Option.some.inj sorts).symm⟩

/-- Sorting and preferences change nothing but the preferences. -/
theorem Resorted.unranked {reset : Heap Network} {after : NetworkManagerBase}
    (resorted : Resorted env merging reset after) (stage : Stage env manager items merging)
    (o : Nat)
    : (after.heap.objects o).map unranked = (reset.objects o).map unranked := by
  obtain ⟨listed, references, live, networks⟩ := resorted.listed stage
  have listedLive (o : Nat) (member : o ∈ after.networks)
      : ∃ network, reset.objects o = some network := by
    rw [networks] at member
    obtain ⟨item, isItem, rfl⟩ := List.mem_map.mp member
    exact ⟨item.2, live item ((env.sort_perm _ listed).mem_iff.mp isItem)⟩
  obtain ⟨final, assigns, unranks, -⟩ :=
    assignPreferences_spec listedLive highestNetworkPreference
  cases assigns.symm.trans resorted.assigns
  exact unranks o

/-- A call that reports a change leaves the table of the two loops, apart from preferences, with
the networks of its keys active and no others.
-/
theorem MergeRun.recorded_of_changed
    (run : MergeRun env manager heap items stats first merging result)
    (h : Registered env manager) (handed : HandedOver manager heap items)
    (changed : result.changed = true) (key : Text)
    : (recorded result.manager key).map unranked
      = (recorded (staged manager merging) key).map fun network =>
          unranked { network with active := (offered env items key).isSome } := by
  have stage := run.stage h handed
  obtain ⟨reset, resorted⟩ := run.resorted h handed changed
  rw [recorded, resorted.networksMap, recorded]
  change _ = (merging.networksMap[key]?.bind merging.heap.objects).map _
  cases filed : merging.networksMap[key]? with
  | none => rfl
  | some o =>
      have listed : merging.mergedList.contains o = (offered env items key).isSome := by
        rw [Bool.eq_iff_iff, List.contains_iff_mem, stage.merged_offered filed,
          Option.isSome_iff_exists]
      rw [Option.bind_some, Option.bind_some, resorted.unranked stage, resorted.reset,
        Option.map_map, listed]
      rfl

-----------------------------------------------------------------------------------------
-- The keys that networks carry
-----------------------------------------------------------------------------------------

/-- Every record carries the key that it is filed under. -/
def Keyed (manager : NetworkManagerBase) : Prop :=
  ∀ key network, recorded manager key = some network → network.key = key

/-- The two loops keep carried keys. -/
theorem TableEffect.keyed (table : TableEffect env manager items merging) (keyed : Keyed manager)
    (labelled : ∀ item ∈ items, item.2.key = item.2.mapKey env)
    : Keyed (staged manager merging) := by
  intro key network found
  cases offer : offered env items key with
  | none =>
      rw [table.kept offer] at found
      exact keyed key network found
  | some net =>
      obtain ⟨id, merged⟩ := table.merged offer
      cases found.symm.trans merged
      cases record : recorded manager key with
      | some existing => exact keyed key existing record
      | none =>
          rw [offered, Option.map_eq_some_iff] at offer
          obtain ⟨item, head, rfl⟩ := offer
          obtain ⟨isItem, isKey⟩ := List.mem_filter.mp (List.mem_of_head? head)
          exact (labelled item isItem).trans (of_decide_eq_true isKey)

/-- A network that is live once the active states are reset is filed under the key that it carries,
and is what the loops left apart from its active state.
-/
theorem Stage.reset_filed (stage : Stage env manager items merging)
    (keyed : Keyed (staged manager merging)) {reset : Heap Network}
    (resets
      : ∀ o,
          reset.objects o
            = (merging.heap.objects o).map fun network =>
                { network with active := merging.mergedList.contains o })
    {o : Nat} {network : Network} (live : reset.objects o = some network)
    : merging.networksMap[network.key]? = some o
      ∧ ∃ before,
          recorded (staged manager merging) network.key = some before
          ∧ network = { before with active := merging.mergedList.contains o } := by
  rw [resets, Option.map_eq_some_iff] at live
  obtain ⟨before, inLoops, rfl⟩ := live
  have adopted := stage.adopted inLoops
  have record : recorded (staged manager merging) (before.mapKey env) = some before := by
    rw [recorded]
    change merging.networksMap[before.mapKey env]?.bind merging.heap.objects = _
    rw [adopted]
    exact inLoops
  have carried : before.key = before.mapKey env := keyed _ before record
  rw [← carried] at adopted record
  exact ⟨adopted, before, record, rfl⟩

/-- Networks that are live once the active states are reset carry different keys. -/
theorem Stage.reset_distinct (stage : Stage env manager items merging)
    (keyed : Keyed (staged manager merging)) {reset : Heap Network}
    (resets
      : ∀ o,
          reset.objects o
            = (merging.heap.objects o).map fun network =>
                { network with active := merging.mergedList.contains o })
    {listed : List (Nat × Network)} (live : Live reset listed)
    : ∀ a ∈ listed, ∀ b ∈ listed, a.2.key = b.2.key → a = b := by
  intro a memberA b memberB sameKey
  obtain ⟨filedA, -⟩ := stage.reset_filed keyed resets (live a memberA)
  obtain ⟨filedB, -⟩ := stage.reset_filed keyed resets (live b memberB)
  have reference : a.1 = b.1 := by
    rw [sameKey, filedB] at filedA
    exact (Option.some.inj filedA).symm
  have networkA := live a memberA
  rw [reference, live b memberB] at networkA
  exact Prod.ext reference (Option.some.inj networkA).symm

/-- A call keeps carried keys, by cases on whether it reports a change. -/
theorem MergeRun.keyed (run : MergeRun env manager heap items stats first merging result)
    (h : Registered env manager) (handed : HandedOver manager heap items) (keyed : Keyed manager)
    (labelled : ∀ item ∈ items, item.2.key = item.2.mapKey env)
    : Keyed result.manager := by
  have stagedKeyed := (run.table h handed).keyed keyed labelled
  cases changed : result.changed with
  | false => rwa [run.manager_of_unchanged changed]
  | true =>
      intro key network found
      have same := run.recorded_of_changed h handed changed key
      rw [found, Option.map_some] at same
      obtain ⟨before, record, agree⟩ := Option.map_eq_some_iff.mp same.symm
      have sameKey := congrArg Network.key agree
      exact sameKey.symm.trans (stagedKeyed key before record)

end Table

/-- Networks are created with their own key. -/
theorem created_labelled (env : Environment) (manager : NetworkManagerBase)
    (call : List NewNetwork)
    : ∀ item ∈ created env manager call, item.2.key = item.2.mapKey env := by
  intro item isItem
  obtain ⟨new, -, same⟩ := exists_new_of_created isItem
  rw [← same]
  rfl

/-- A call with what its loops do, on the networks as they are arranged. -/
theorem update_run {env : Environment} {manager : NetworkManagerBase} (h : Registered env manager)
    (call : List NewNetwork)
    : ∃ first merging result,
        update env manager call = some result
        ∧ HandedOver manager (manager.heap.createAll (call.map (NewNetwork.network env))).2
            (arranged env (created env manager call))
        ∧ MergeRun env manager (manager.heap.createAll (call.map (NewNetwork.network env))).2
            (arranged env (created env manager call)) {} first merging result := by
  have handed := created_handedOver env manager call
  obtain ⟨first, merging, result, runs, run⟩ := mergeNetworkList_run h handed {}
  exact ⟨first, merging, result, runs, handed.perm (arranged_perm env _), run⟩

/-- Any sequence of calls leads to a registered manager whose records carry their keys. -/
theorem updates_keyed (env : Environment) (calls : List (List NewNetwork))
    : ∃ final, updates env calls = some final ∧ Registered env final ∧ Keyed final := by
  let invariant (_ : List (List NewNetwork)) (manager : NetworkManagerBase) : Prop :=
    Registered env manager ∧ Keyed manager
  have initial : invariant [] .construct := by
    refine ⟨Registered.construct env, ?_⟩
    intro key network found
    simp [recorded, NetworkManagerBase.construct] at found
  apply foldlM_invariant initial
  rintro done call rest manager - ⟨registered, keyed⟩
  obtain ⟨first, merging, result, runs, handed, run⟩ := update_run registered call
  have stage := run.stage registered handed
  refine ⟨result.manager, by rw [runs, Option.map_some], (run.finished stage).registered stage, ?_⟩
  apply run.keyed registered handed keyed
  intro item isItem
  exact created_labelled env manager call item ((arranged_perm env _).mem_iff.mp isItem)

/-- An Ethernet interface with the address `10.0.0.1/8`. -/
def interface (name : Text) : NewNetwork where
  name := name
  description := []
  prefixIP := .ip4 #v[10, 0, 0, 0]
  prefixLength := 8
  type := .ethernet
  scopeId := 0
  ignored := false
  ips := [⟨.ip4 #v[10, 0, 0, 1], 0⟩]
  ips_ne_nil := by simp

end RtcBase.Networks
