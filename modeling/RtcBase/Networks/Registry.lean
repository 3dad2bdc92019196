import RtcBase.Networks.Loops

/-! The registry of networks over whole sequences of merges: which object stands for which key,
which networks are listed and active, and what becomes of every network that is handed over.
-/

namespace RtcBase.Networks

open Library

/-- A freshly created network as it is handed to the manager: the arguments of its constructor,
what its creator set since, and the addresses that were added, at least one.
-/
structure NewNetwork where
  name : Text
  description : Text
  prefixIP : IPAddress
  prefixLength : Int
  type : AdapterType
  scopeId : Int
  ignored : Bool
  ips : List InterfaceAddress
  ips_ne_nil : ips ≠ []

/-- The object itself. -/
def NewNetwork.network (env : Environment) (new : NewNetwork) : Network :=
  { Network.construct env new.name new.description new.prefixIP new.prefixLength new.type with
    scopeId := new.scopeId
    ignored := new.ignored
    ips := new.ips }

/-- The key under which a new network is filed. -/
def NewNetwork.key (env : Environment) (new : NewNetwork) : Text :=
  makeNetworkKey env new.name new.prefixIP new.prefixLength

/-- The networks of a call with the identities that they get on the heap. -/
def created (env : Environment) (manager : NetworkManagerBase) (call : List NewNetwork)
    : List (Nat × Network) :=
  (manager.heap.createAll (call.map (NewNetwork.network env))).1.zip
    (call.map (NewNetwork.network env))

/-- Create the networks of a call and merge them. -/
def update (env : Environment) (manager : NetworkManagerBase) (call : List NewNetwork)
    : Option MergeResult :=
  let heap := (manager.heap.createAll (call.map (NewNetwork.network env))).2
  mergeNetworkList env { manager with heap := heap } ((created env manager call).map Prod.fst) {}

/-- The manager after a sequence of calls. -/
def updates (env : Environment) (calls : List (List NewNetwork)) : Option NetworkManagerBase :=
  calls.foldlM (fun manager call => (update env manager call).map MergeResult.manager) .construct

-----------------------------------------------------------------------------------------
-- The invariant
-----------------------------------------------------------------------------------------

/-- The live networks are exactly those of the map, each under its own key; the listed ones are
distinct, and exactly the active ones.
-/
structure Registered (env : Environment) (manager : NetworkManagerBase) : Prop where
  filed
    : ∀ {key : Text} {o : Nat},
        manager.networksMap[key]? = some o
        → ∃ network, manager.heap.objects o = some network ∧ network.mapKey env = key
  adopted
    : ∀ {o : Nat} {network : Network},
        manager.heap.objects o = some network
        → manager.networksMap[network.mapKey env]? = some o
  distinct : manager.networks.Nodup
  listed : ∀ o ∈ manager.networks, ∃ network, manager.heap.objects o = some network
  active_iff
    : ∀ {o : Nat} {network : Network},
        manager.heap.objects o = some network → (network.active = true ↔ o ∈ manager.networks)

/-- The manager starts registered, with nothing. -/
theorem Registered.construct (env : Environment) : Registered env .construct where
  filed found := by simp [NetworkManagerBase.construct] at found
  adopted found := by cases found
  distinct := List.nodup_nil
  listed _ member := by cases member
  active_iff found := by cases found

/-- The networks handed over in a call are new objects on the heap, distinct and with addresses,
and the other objects are the manager's.
-/
structure HandedOver (manager : NetworkManagerBase) (heap : Heap Network)
    (items : List (Nat × Network))
    : Prop where
  live : Live heap items
  distinct : (items.map Prod.fst).Nodup
  fresh : ∀ item ∈ items, manager.heap.next ≤ item.1
  others : ∀ o, o ∉ items.map Prod.fst → heap.objects o = manager.heap.objects o
  addressed : ∀ item ∈ items, item.2.ips ≠ []

/-- What the two loops of a merge leave: the map with the new keys bound, and the merged list. -/
structure Stage (env : Environment) (manager : NetworkManagerBase) (items : List (Nat × Network))
    (merging : Merging)
    : Prop where
  kept
    : ∀ {key : Text} {o : Nat},
        manager.networksMap[key]? = some o → merging.networksMap[key]? = some o
  bound
    : ∀ {key : Text} {o : Nat},
        manager.networksMap[key]? = none
        → merging.networksMap[key]? = some o
        → ∃ item ∈ items, item.1 = o ∧ item.2.mapKey env = key
  filed
    : ∀ {key : Text} {o : Nat},
        merging.networksMap[key]? = some o
        → ∃ network, merging.heap.objects o = some network ∧ network.mapKey env = key
  adopted
    : ∀ {o : Nat} {network : Network},
        merging.heap.objects o = some network
        → merging.networksMap[network.mapKey env]? = some o
  distinct : merging.mergedList.Nodup
  merged_iff
    : ∀ o,
        o ∈ merging.mergedList
        ↔ ∃ item ∈ items, merging.networksMap[item.2.mapKey env]? = some o
  known : ∀ item ∈ items, ∃ o, merging.networksMap[item.2.mapKey env]? = some o
  addresses
    : ∀ {o : Nat} {network : Network},
        o ∈ merging.mergedList
        → merging.heap.objects o = some network
        → network.ips.Perm
            ((filedUnder env items (network.mapKey env)).flatMap fun item => item.2.ips)
  quiet
    : merging.changed = false
      → (∀ o ∈ merging.mergedList, o ∈ manager.networks)
        ∧ ∀ {o : Nat} {network : Network},
            merging.heap.objects o = some network
            → (network.active = true ↔ o ∈ manager.networks)

-----------------------------------------------------------------------------------------
-- Handing networks over
-----------------------------------------------------------------------------------------

/-- The networks of a call are handed over as they are created. -/
theorem created_handedOver (env : Environment) (manager : NetworkManagerBase)
    (call : List NewNetwork)
    : HandedOver manager (manager.heap.createAll (call.map (NewNetwork.network env))).2
        (created env manager call) := by
  obtain ⟨lengths, distinct, fresh, live, others⟩ :=
    manager.heap.createAll_spec (call.map (NewNetwork.network env))
  have references
      : (created env manager call).map Prod.fst
        = (manager.heap.createAll (call.map (NewNetwork.network env))).1 :=
    List.map_fst_zip (by omega)
  refine ⟨live, by rwa [references], ?_, by rwa [references], ?_⟩
  · intro item member
    exact fresh _ (List.of_mem_zip member).1
  · intro item member
    obtain ⟨new, -, isNew⟩ := List.mem_map.mp (List.of_mem_zip member).2
    rw [← isNew]
    exact new.ips_ne_nil

/-- The order in which networks are handed over does not matter. -/
theorem HandedOver.perm {manager : NetworkManagerBase} {heap : Heap Network}
    {items sorted : List (Nat × Network)} (handed : HandedOver manager heap items)
    (same : sorted.Perm items)
    : HandedOver manager heap sorted where
  live item member := handed.live item (same.mem_iff.mp member)
  distinct := (same.map Prod.fst).nodup_iff.mpr handed.distinct
  fresh item member := handed.fresh item (same.mem_iff.mp member)
  others o outside := handed.others o (fun member => outside ((same.map Prod.fst).mem_iff.mpr member))
  addressed item member := handed.addressed item (same.mem_iff.mp member)

/-- The first loop leaves the networks of the manager alone. -/
theorem HandedOver.old {env : Environment} {manager : NetworkManagerBase} {heap : Heap Network}
    {items : List (Nat × Network)} (handed : HandedOver manager heap items)
    {first : Consolidation} (loop : Consolidated env heap items first) {o : Nat}
    (old : o < manager.heap.next)
    : first.heap.objects o = manager.heap.objects o := by
  have outside : o ∉ items.map Prod.fst := by
    intro member
    obtain ⟨item, isItem, rfl⟩ := List.mem_map.mp member
    have := handed.fresh item isItem
    omega
  exact (loop.others o outside).trans (handed.others o outside)

/-- Both objects of an entry are live after the first loop and have the entry's key; the new one
was handed over.
-/
theorem entry_objects {env : Environment} {manager : NetworkManagerBase}
    (h : Registered env manager) {heap : Heap Network} {items : List (Nat × Network)}
    (handed : HandedOver manager heap items) {first : Consolidation}
    (loop : Consolidated env heap items first) {entry : Text × AddressList}
    (member : entry ∈ first.consolidated.toList)
    : (∃ item ∈ items,
        item.1 = entry.2.net
        ∧ item.2.mapKey env = entry.1
        ∧ first.heap.objects entry.2.net = some item.2)
      ∧ (∃ network,
          first.heap.objects (target manager.networksMap entry) = some network
          ∧ network.mapKey env = entry.1)
      ∧ ∀ existing, manager.networksMap[entry.1]? = some existing → existing < entry.2.net := by
  have found : gathered env items entry.1 = some entry.2 := by
    rw [← loop.entries]
    exact Std.ExtTreeMap.mem_toList_iff_getElem?_eq_some.mp member
  obtain ⟨item, isItem, isNet, key⟩ := gathered_mem found
  have live : first.heap.objects entry.2.net = some item.2 := by
    rw [loop.kept found, ← isNet]
    exact handed.live item isItem
  refine ⟨⟨item, isItem, isNet, key, live⟩, ?_, ?_⟩
  · cases known : manager.networksMap[entry.1]? with
    | none => exact ⟨item.2, by simpa [target, known] using live, key⟩
    | some existing =>
        obtain ⟨network, filed, ownKey⟩ := h.filed known
        have isExisting : target manager.networksMap entry = existing := by simp [target, known]
        exact ⟨network, by rw [isExisting, handed.old loop (manager.heap.lt_next filed), filed],
          ownKey⟩
  · intro existing known
    obtain ⟨network, filed, -⟩ := h.filed known
    have old := manager.heap.lt_next filed
    have new := handed.fresh item isItem
    omega

/-- The entries of the first loop are separate, since every object has one key. -/
theorem entries_separate {env : Environment} {manager : NetworkManagerBase}
    (h : Registered env manager) {heap : Heap Network} {items : List (Nat × Network)}
    (handed : HandedOver manager heap items) {first : Consolidation}
    (loop : Consolidated env heap items first)
    : first.consolidated.toList.Pairwise (Separate manager.networksMap) := by
  apply List.Pairwise.imp_of_mem _ Std.ExtTreeMap.distinct_keys_toList
  intro a b memberA memberB differ
  have keys : a.1 ≠ b.1 := by simpa using differ
  obtain ⟨⟨itemA, -, -, keyA, netA⟩, ⟨networkA, targetA, ownKeyA⟩, -⟩ :=
    entry_objects h handed loop memberA
  obtain ⟨⟨itemB, -, -, keyB, netB⟩, ⟨networkB, targetB, ownKeyB⟩, -⟩ :=
    entry_objects h handed loop memberB
  have apart {o o' : Nat} {network network' : Network}
      (found : first.heap.objects o = some network) (key : network.mapKey env = a.1)
      (found' : first.heap.objects o' = some network') (key' : network'.mapKey env = b.1)
      : o ≠ o' := by
    rintro rfl
    rw [found] at found'
    cases found'
    exact keys (key.symm.trans key')
  exact ⟨keys, apart targetA ownKeyA targetB ownKeyB, apart targetA ownKeyA netB keyB,
    apart netA keyA targetB ownKeyB, apart netA keyA netB keyB⟩

-----------------------------------------------------------------------------------------
-- After the two loops
-----------------------------------------------------------------------------------------

section Loops

variable {env : Environment} {manager : NetworkManagerBase} {heap : Heap Network}
  {items : List (Nat × Network)} {first : Consolidation} {merging : Merging}

/-- The keys of the entries are those of the networks handed over. -/
theorem Consolidated.key_iff (loop : Consolidated env heap items first) (key : Text)
    : (∃ entry ∈ first.consolidated.toList, entry.1 = key)
      ↔ ∃ item ∈ items, item.2.mapKey env = key := by
  constructor
  · rintro ⟨entry, member, rfl⟩
    have found := Std.ExtTreeMap.mem_toList_iff_getElem?_eq_some.mp member
    rw [loop.entries] at found
    obtain ⟨item, isItem, -, same⟩ := gathered_mem found
    exact ⟨item, isItem, same⟩
  · rintro ⟨item, isItem, rfl⟩
    cases found : gathered env items (item.2.mapKey env) with
    | none => exact absurd rfl (gathered_eq_none.mp found item isItem)
    | some addresses =>
        rw [← loop.entries] at found
        exact ⟨(_, addresses), Std.ExtTreeMap.mem_toList_iff_getElem?_eq_some.mpr found, rfl⟩

/-- A key of the new map was in the old one, or belongs to an entry whose network was adopted. -/
theorem Merged.filed_cases {entries : List (Text × AddressList)}
    (merged : Merged env heap manager.networksMap entries merging) {key : Text} {o : Nat}
    (found : merging.networksMap[key]? = some o)
    : manager.networksMap[key]? = some o
      ∨ (manager.networksMap[key]? = none
        ∧ ∃ entry ∈ entries, entry.1 = key ∧ entry.2.net = o) := by
  rw [merged.filed] at found
  cases known : manager.networksMap[key]? with
  | some existing =>
      left
      simpa [known] using found
  | none =>
      right
      rw [known, Option.none_or, Option.map_eq_some_iff] at found
      obtain ⟨entry, searched, net⟩ := found
      have key := List.find?_some searched
      exact ⟨rfl, entry, List.mem_of_find?_eq_some searched, by simpa using key, net⟩

/-- The new map leads from the key of an entry to the network that stands for it. -/
theorem Merged.lookup {entries : List (Text × AddressList)}
    (merged : Merged env heap manager.networksMap entries merging)
    (separate : entries.Pairwise (Separate manager.networksMap)) {entry : Text × AddressList}
    (member : entry ∈ entries)
    : merging.networksMap[entry.1]? = some (target manager.networksMap entry) := by
  rw [merged.filed]
  cases known : manager.networksMap[entry.1]? with
  | some existing => simp [target, known]
  | none =>
      obtain ⟨other, searched⟩ : ∃ other, (entries.find? fun e => e.1 = entry.1) = some other := by
        rw [← Option.isSome_iff_exists, List.find?_isSome]
        exact ⟨entry, member, by simp⟩
      have sameKey : other.1 = entry.1 := by simpa using List.find?_some searched
      have keys : (entries.map Prod.fst).Nodup :=
        List.pairwise_map.mpr (separate.imp fun apart => apart.keys)
      have same : other = entry :=
        List.inj_on_of_nodup_map keys (List.mem_of_find?_eq_some searched) member sameKey
      rw [searched, same]
      simp [target, known]

/-- A network that is live after the two loops stands for an entry, or is one of the manager's
that no entry concerns.
-/
theorem live_cases (handed : HandedOver manager heap items)
    (loop : Consolidated env heap items first)
    (merged : Merged env first.heap manager.networksMap first.consolidated.toList merging)
    {o : Nat} {network : Network} (live : merging.heap.objects o = some network)
    : (∃ entry ∈ first.consolidated.toList, target manager.networksMap entry = o)
      ∨ manager.heap.objects o = some network := by
  by_cases isTarget : ∃ entry ∈ first.consolidated.toList, target manager.networksMap entry = o
  · exact .inl isTarget
  right
  -- the new network of an entry that is not its target has been deleted
  have notNet : ∀ entry ∈ first.consolidated.toList, entry.2.net ≠ o := by
    rintro entry member rfl
    cases known : manager.networksMap[entry.1]? with
    | none => exact isTarget ⟨entry, member, by simp [target, known]⟩
    | some existing =>
        have gone := merged.discarded entry member (by simp [known])
        cases live.symm.trans gone
  have sameFirst : merging.heap.objects o = first.heap.objects o :=
    merged.others o (fun entry member =>
      ⟨fun same => isTarget ⟨entry, member, same⟩, notNet entry member⟩)
  -- so has every network handed over that is not the first one with its key
  have notItem : o ∉ items.map Prod.fst := by
    intro member
    obtain ⟨item, isItem, rfl⟩ := List.mem_map.mp member
    have gone : first.heap.objects item.1 = none := by
      apply loop.discarded item isItem
      intro isNet
      obtain ⟨addresses, found, same⟩ := Option.map_eq_some_iff.mp isNet
      rw [← loop.entries] at found
      exact notNet (_, addresses) (Std.ExtTreeMap.mem_toList_iff_getElem?_eq_some.mpr found) same
    rw [← sameFirst, live] at gone
    cases gone
  rw [← live, sameFirst, loop.others o notItem, handed.others o notItem]

/-- The network that stands for an entry has the entry's key and addresses. -/
theorem standing (h : Registered env manager) (handed : HandedOver manager heap items)
    (loop : Consolidated env heap items first)
    (merged : Merged env first.heap manager.networksMap first.consolidated.toList merging)
    {entry : Text × AddressList} (member : entry ∈ first.consolidated.toList)
    : ∃ network,
        merging.heap.objects (target manager.networksMap entry) = some network
        ∧ network.mapKey env = entry.1
        ∧ network.ips = entry.2.ips := by
  obtain ⟨before, after, existed, exists_, ips, -, sameKey⟩ := merged.updated entry member
  obtain ⟨-, ⟨network, found, ownKey⟩, -⟩ := entry_objects h handed loop member
  cases existed.symm.trans found
  exact ⟨after, exists_, sameKey.trans ownKey, ips⟩

/-- A network of the manager whose key no entry has goes through both loops untouched. -/
theorem untouched (h : Registered env manager) (handed : HandedOver manager heap items)
    (loop : Consolidated env heap items first)
    (merged : Merged env first.heap manager.networksMap first.consolidated.toList merging)
    {o : Nat} {network : Network} (found : manager.heap.objects o = some network)
    (notEntry : ¬ ∃ entry ∈ first.consolidated.toList, entry.1 = network.mapKey env)
    : merging.heap.objects o = some network := by
  have old := handed.old loop (manager.heap.lt_next found)
  rw [found] at old
  rw [merged.others o, old]
  intro entry member
  obtain ⟨⟨item, -, -, keyNet, net⟩, ⟨standingNet, foundTarget, keyTarget⟩, -⟩ :=
    entry_objects h handed loop member
  refine ⟨?_, ?_⟩
  · rintro rfl
    cases old.symm.trans foundTarget
    exact notEntry ⟨entry, member, keyTarget.symm⟩
  · rintro rfl
    cases old.symm.trans net
    exact notEntry ⟨entry, member, keyNet.symm⟩

/-- Every key of the new map leads to a live network with that key. -/
theorem merged_filed (h : Registered env manager) (handed : HandedOver manager heap items)
    (loop : Consolidated env heap items first)
    (merged : Merged env first.heap manager.networksMap first.consolidated.toList merging)
    {key : Text} {o : Nat} (found : merging.networksMap[key]? = some o)
    : ∃ network, merging.heap.objects o = some network ∧ network.mapKey env = key := by
  by_cases isEntry : ∃ entry ∈ first.consolidated.toList, entry.1 = key
  · obtain ⟨entry, member, rfl⟩ := isEntry
    rw [merged.lookup (entries_separate h handed loop) member] at found
    cases found
    obtain ⟨network, live, ownKey, -⟩ := standing h handed loop merged member
    exact ⟨network, live, ownKey⟩
  · rcases merged.filed_cases found with known | ⟨-, entry, member, isKey, -⟩
    · obtain ⟨network, filed, ownKey⟩ := h.filed known
      exact ⟨network, untouched h handed loop merged filed (by rwa [ownKey]), ownKey⟩
    · exact absurd ⟨entry, member, isKey⟩ isEntry

/-- The merged list holds the networks of the new map for the keys handed over. -/
theorem merged_list_iff (h : Registered env manager) (handed : HandedOver manager heap items)
    (loop : Consolidated env heap items first)
    (merged : Merged env first.heap manager.networksMap first.consolidated.toList merging) (o : Nat)
    : o ∈ merging.mergedList
      ↔ ∃ item ∈ items, merging.networksMap[item.2.mapKey env]? = some o := by
  have separate := entries_separate h handed loop
  rw [merged.list, List.mem_map]
  constructor
  · rintro ⟨entry, member, rfl⟩
    obtain ⟨item, isItem, ownKey⟩ := (loop.key_iff entry.1).mp ⟨entry, member, rfl⟩
    exact ⟨item, isItem, by rw [ownKey]; exact merged.lookup separate member⟩
  · intro ⟨item, isItem, found⟩
    obtain ⟨entry, member, isKey⟩ := (loop.key_iff _).mpr ⟨item, isItem, rfl⟩
    rw [← isKey, merged.lookup separate member] at found
    exact ⟨entry, member, Option.some.inj found⟩

/-- When the loops found no change, every entry stands for a network that was listed and active. -/
theorem unchanged_listed (h : Registered env manager) (handed : HandedOver manager heap items)
    (loop : Consolidated env heap items first)
    (merged : Merged env first.heap manager.networksMap first.consolidated.toList merging)
    (same : merging.changed = false) {entry : Text × AddressList}
    (member : entry ∈ first.consolidated.toList)
    : target manager.networksMap entry ∈ manager.networks
      ∧ ∀ network,
          merging.heap.objects (target manager.networksMap entry) = some network
          → network.active = true := by
  obtain ⟨existing, network, known, found, active⟩ := merged.unchanged same entry member
  have isExisting : target manager.networksMap entry = existing := by simp [target, known]
  obtain ⟨filedNetwork, filed, -⟩ := h.filed known
  have old := handed.old loop (manager.heap.lt_next filed)
  rw [found] at old
  refine ⟨by rw [isExisting]; exact (h.active_iff old.symm).mp active, ?_⟩
  intro after live
  obtain ⟨before, updated, existed, exists_, -, sameActive, -⟩ := merged.updated entry member
  rw [live] at exists_
  rw [isExisting, found] at existed
  cases exists_
  cases existed
  exact sameActive.trans active

/-- What the two loops do to a registered manager. -/
theorem stage_of_loops (h : Registered env manager) (handed : HandedOver manager heap items)
    (loop : Consolidated env heap items first)
    (merged : Merged env first.heap manager.networksMap first.consolidated.toList merging)
    : Stage env manager items merging where
  kept known := by rw [merged.filed, known, Option.some_or]
  bound unknown found := by
    rcases merged.filed_cases found with known | ⟨-, entry, member, rfl, rfl⟩
    · cases unknown.symm.trans known
    · obtain ⟨⟨item, isItem, isNet, ownKey, -⟩, -⟩ := entry_objects h handed loop member
      exact ⟨item, isItem, isNet, ownKey⟩
  filed := merged_filed h handed loop merged
  adopted live := by
    rcases live_cases handed loop merged live with ⟨entry, member, rfl⟩ | old
    · obtain ⟨standingNet, found, ownKey, -⟩ := standing h handed loop merged member
      cases live.symm.trans found
      rw [ownKey]
      exact merged.lookup (entries_separate h handed loop) member
    · rw [merged.filed, h.adopted old, Option.some_or]
  distinct := by
    rw [merged.list]
    exact List.pairwise_map.mpr
      ((entries_separate h handed loop).imp fun apart => apart.targets)
  merged_iff := merged_list_iff h handed loop merged
  known item isItem := by
    obtain ⟨entry, member, isKey⟩ := (loop.key_iff _).mpr ⟨item, isItem, rfl⟩
    rw [← isKey]
    exact ⟨_, merged.lookup (entries_separate h handed loop) member⟩
  addresses isMerged live := by
    rw [merged.list, List.mem_map] at isMerged
    obtain ⟨entry, member, rfl⟩ := isMerged
    obtain ⟨standingNet, found, ownKey, ips⟩ := standing h handed loop merged member
    cases live.symm.trans found
    have entries := Std.ExtTreeMap.mem_toList_iff_getElem?_eq_some.mp member
    rw [loop.entries, gathered, Option.map_eq_some_iff] at entries
    obtain ⟨_, -, isAddresses⟩ := entries
    rw [ips, ownKey, ← isAddresses]
  quiet same := by
    refine ⟨?_, ?_⟩
    · intro o isMerged
      rw [merged.list, List.mem_map] at isMerged
      obtain ⟨entry, member, rfl⟩ := isMerged
      exact (unchanged_listed h handed loop merged same member).1
    · intro o network live
      rcases live_cases handed loop merged live with ⟨entry, member, rfl⟩ | old
      · obtain ⟨listed, active⟩ := unchanged_listed h handed loop merged same member
        exact iff_of_true (active network live) listed
      · exact h.active_iff old

end Loops

/-- The two loops leave the same whatever the order of the networks handed over. -/
theorem Stage.perm {env : Environment} {manager : NetworkManagerBase}
    {items sorted : List (Nat × Network)} {merging : Merging}
    (stage : Stage env manager sorted merging) (same : sorted.Perm items)
    : Stage env manager items merging where
  kept := stage.kept
  bound unknown found := by
    obtain ⟨item, isItem, facts⟩ := stage.bound unknown found
    exact ⟨item, same.mem_iff.mp isItem, facts⟩
  filed := stage.filed
  adopted := stage.adopted
  distinct := stage.distinct
  merged_iff o := by
    rw [stage.merged_iff]
    simp only [same.mem_iff]
  known item isItem := stage.known item (same.mem_iff.mpr isItem)
  addresses isMerged live :=
    (stage.addresses isMerged live).trans ((same.filter _).flatMap_right _)
  quiet := stage.quiet

-----------------------------------------------------------------------------------------
-- The end of a merge
-----------------------------------------------------------------------------------------

/-- References to live objects come with the objects, by induction on the references. -/
theorem exists_live {heap : Heap Network} {list : List Nat}
    (live : ∀ o ∈ list, ∃ network, heap.objects o = some network)
    : ∃ items : List (Nat × Network), items.map Prod.fst = list ∧ Live heap items := by
  induction list with
  | nil => exact ⟨[], rfl, by simp [Live]⟩
  | cons o rest ih =>
      obtain ⟨network, found⟩ := live o (by simp)
      obtain ⟨items, references, later⟩ := ih (fun other member => live other (by simp [member]))
      refine ⟨(o, network) :: items, by simp [references], ?_⟩
      intro item member
      rcases List.mem_cons.mp member with rfl | member
      · exact found
      · exact later item member

/-- The manager after the two loops, before the end of the merge. -/
def staged (manager : NetworkManagerBase) (merging : Merging) : NetworkManagerBase :=
  { manager with
    heap := merging.heap
    networksMap := merging.networksMap
    nextAvailableNetworkId := merging.nextAvailableNetworkId }

/-- What the end of a merge may do to the networks: it keeps all of them with their keys and
addresses, and lists the merged ones.
-/
structure Finished (env : Environment) (merging : Merging) (after : NetworkManagerBase)
    : Prop where
  networksMap : after.networksMap = merging.networksMap
  networks : after.networks.Perm merging.mergedList
  next : after.heap.next = merging.heap.next
  objects
    : ∀ o,
        (after.heap.objects o).map (fun network => (network.mapKey env, network.ips))
        = (merging.heap.objects o).map fun network => (network.mapKey env, network.ips)
  active
    : ∀ {o : Nat} {network : Network},
        after.heap.objects o = some network → (network.active = true ↔ o ∈ after.networks)

/-- A merge without changes keeps a list that has the networks of the merged list already. -/
theorem Stage.finished_unchanged {env : Environment} {manager : NetworkManagerBase}
    {items : List (Nat × Network)} {merging : Merging} (stage : Stage env manager items merging)
    (same : merging.changed = false)
    (sameLength : merging.mergedList.length = manager.networks.length)
    : Finished env merging (staged manager merging) := by
  obtain ⟨listed, active⟩ := stage.quiet same
  have merged : merging.mergedList.Perm manager.networks :=
    (stage.distinct.subperm listed).perm_of_length_le (Nat.le_of_eq sameLength.symm)
  exact ⟨rfl, merged.symm, rfl, fun _ => rfl, active⟩

/-- Resetting the active states over the whole map sets that of every live network. -/
theorem Stage.reset {env : Environment} {manager : NetworkManagerBase}
    {items : List (Nat × Network)} {merging : Merging} (stage : Stage env manager items merging)
    : ∃ heap,
        merging.networksMap.toList.foldlM (resetActive merging.mergedList) merging.heap = some heap
        ∧ (∀ o,
            heap.objects o
              = (merging.heap.objects o).map fun network =>
                  { network with active := merging.mergedList.contains o })
        ∧ heap.next = merging.heap.next := by
  have filed {entry : Text × Nat} (member : entry ∈ merging.networksMap.toList)
      : ∃ network,
          merging.heap.objects entry.2 = some network ∧ network.mapKey env = entry.1 :=
    stage.filed (Std.ExtTreeMap.mem_toList_iff_getElem?_eq_some.mp member)
  -- one object under two keys would have both as its own key
  have distinct : (merging.networksMap.toList.map Prod.snd).Nodup := by
    apply List.pairwise_map.mpr
    apply List.Pairwise.imp_of_mem _ Std.ExtTreeMap.distinct_keys_toList
    intro a b memberA memberB differ same
    obtain ⟨network, found, ownKey⟩ := filed memberA
    obtain ⟨network', found', ownKey'⟩ := filed memberB
    rw [← same, found] at found'
    cases found'
    exact differ (Std.compare_eq_iff_eq.mpr (ownKey.symm.trans ownKey'))
  have live (entry : Text × Nat) (member : entry ∈ merging.networksMap.toList)
      : ∃ network, merging.heap.objects entry.2 = some network := by
    obtain ⟨network, found, -⟩ := filed member
    exact ⟨network, found⟩
  obtain ⟨heap, runs, reset, others, next⟩ := resetActive_all merging.mergedList distinct live
  refine ⟨heap, runs, ?_, next⟩
  intro o
  cases found : merging.heap.objects o with
  | some network =>
      have member := Std.ExtTreeMap.mem_toList_iff_getElem?_eq_some.mpr (stage.adopted found)
      rw [← found]
      exact reset _ member
  | none =>
      have outside : o ∉ merging.networksMap.toList.map Prod.snd := by
        intro member
        obtain ⟨entry, isEntry, rfl⟩ := List.mem_map.mp member
        obtain ⟨network, isLive⟩ := live entry isEntry
        cases found.symm.trans isLive
      rw [others o outside, found]
      rfl

/-- The merged networks are live after the active states are reset. -/
theorem Stage.merged_live {env : Environment} {manager : NetworkManagerBase}
    {items : List (Nat × Network)} {merging : Merging} (stage : Stage env manager items merging)
    {heap : Heap Network}
    (reset
      : ∀ o,
          heap.objects o
            = (merging.heap.objects o).map fun network =>
                { network with active := merging.mergedList.contains o })
    : ∀ o ∈ merging.mergedList, ∃ network, heap.objects o = some network := by
  intro o member
  obtain ⟨item, -, found⟩ := (stage.merged_iff o).mp member
  obtain ⟨network, isLive, -⟩ := stage.filed found
  exact ⟨_, by rw [reset, isLive, Option.map_some]⟩

/-- A merge with changes takes the merged list over and makes its networks the active ones. -/
theorem Stage.finished_changed {env : Environment} {manager : NetworkManagerBase}
    {items : List (Nat × Network)} {merging : Merging} (stage : Stage env manager items merging)
    : ∃ after,
        applyChanges env (staged manager merging) merging.mergedList true = some after
        ∧ Finished env merging after := by
  obtain ⟨heap, runs, reset, next⟩ := stage.reset
  have live := stage.merged_live reset
  obtain ⟨listed, references, liveListed⟩ := exists_live live
  obtain ⟨sorted, permuted, sorts⟩ := sortObjects_spec env Network.sortNetworks liveListed
  rw [references] at sorts
  have networks : (sorted.map Prod.fst).Perm merging.mergedList := by
    rw [← references]
    exact permuted.map Prod.fst
  obtain ⟨final, assigns, unranks, lastNext⟩ := assignPreferences_spec
    (fun o member => live o (networks.mem_iff.mp member)) highestNetworkPreference
  refine ⟨{ staged manager merging with heap := final, networks := sorted.map Prod.fst }, ?_,
    rfl, networks, lastNext.trans next, ?_, ?_⟩
  · simp only [applyChanges, staged, if_true, runs, Option.bind_eq_bind, Option.bind_some, sorts,
      assigns]
  · intro o
    have same := congrArg (Option.map fun network => (network.mapKey env, network.ips)) (unranks o)
    rw [reset] at same
    simpa [Option.map_map, Function.comp_def, unranked, Network.mapKey] using same
  · intro o network found
    have same := congrArg (Option.map Network.active) (unranks o)
    simp only [reset, Option.map_map, Function.comp_def, unranked] at same
    rw [found, Option.map_some] at same
    obtain ⟨before, -, active⟩ := Option.map_eq_some_iff.mp same.symm
    rw [← active, networks.mem_iff, List.contains_iff_mem]

-----------------------------------------------------------------------------------------
-- One call
-----------------------------------------------------------------------------------------

/-- The effect of one call on the registry. -/
structure CallEffect (env : Environment) (before : NetworkManagerBase)
    (items : List (Nat × Network)) (after : NetworkManagerBase)
    : Prop where
  kept
    : ∀ {key : Text} {o : Nat},
        before.networksMap[key]? = some o → after.networksMap[key]? = some o
  bound
    : ∀ {key : Text} {o : Nat},
        before.networksMap[key]? = none
        → after.networksMap[key]? = some o
        → ∃ item ∈ items, item.1 = o ∧ item.2.mapKey env = key
  known : ∀ item ∈ items, ∃ o, after.networksMap[item.2.mapKey env]? = some o
  listed
    : ∀ o,
        o ∈ after.networks ↔ ∃ item ∈ items, after.networksMap[item.2.mapKey env]? = some o
  addresses
    : ∀ {o : Nat} {network : Network},
        o ∈ after.networks
        → after.heap.objects o = some network
        → network.ips.Perm
            ((filedUnder env items (network.mapKey env)).flatMap fun item => item.2.ips)
  handed : ∀ item ∈ items, item.1 < after.heap.next

/-- A network that is live before the end of a merge is live after it, with its key and
addresses.
-/
theorem Finished.forward {env : Environment} {after : NetworkManagerBase} {merging : Merging}
    (finished : Finished env merging after) {o : Nat} {network : Network}
    (found : merging.heap.objects o = some network)
    : ∃ later,
        after.heap.objects o = some later
        ∧ later.mapKey env = network.mapKey env
        ∧ later.ips = network.ips := by
  have same := finished.objects o
  rw [found, Option.map_some, Option.map_eq_some_iff] at same
  obtain ⟨later, exists_, agree⟩ := same
  exact ⟨later, exists_, congrArg Prod.fst agree, congrArg Prod.snd agree⟩

/-- A network that is live after the end of a merge was live before it, with its key and
addresses.
-/
theorem Finished.backward {env : Environment} {after : NetworkManagerBase} {merging : Merging}
    (finished : Finished env merging after) {o : Nat} {later : Network}
    (found : after.heap.objects o = some later)
    : ∃ network,
        merging.heap.objects o = some network
        ∧ later.mapKey env = network.mapKey env
        ∧ later.ips = network.ips := by
  have same := finished.objects o
  rw [found, Option.map_some] at same
  obtain ⟨network, existed, agree⟩ := Option.map_eq_some_iff.mp same.symm
  exact ⟨network, existed, (congrArg Prod.fst agree).symm, (congrArg Prod.snd agree).symm⟩

/-- The end of a merge leaves a registered manager. -/
theorem Finished.registered {env : Environment} {manager after : NetworkManagerBase}
    {items : List (Nat × Network)} {merging : Merging} (finished : Finished env merging after)
    (stage : Stage env manager items merging)
    : Registered env after where
  filed found := by
    rw [finished.networksMap] at found
    obtain ⟨network, live, ownKey⟩ := stage.filed found
    obtain ⟨later, exists_, sameKey, -⟩ := finished.forward live
    exact ⟨later, exists_, sameKey.trans ownKey⟩
  adopted found := by
    obtain ⟨network, live, sameKey, -⟩ := finished.backward found
    rw [finished.networksMap, sameKey]
    exact stage.adopted live
  distinct := finished.networks.nodup_iff.mpr stage.distinct
  listed o member := by
    obtain ⟨item, -, found⟩ := (stage.merged_iff o).mp (finished.networks.mem_iff.mp member)
    obtain ⟨network, live, -⟩ := stage.filed found
    obtain ⟨later, exists_, -⟩ := finished.forward live
    exact ⟨later, exists_⟩
  active_iff := finished.active

/-- The end of a merge leaves the effect of the call. -/
theorem Finished.effect {env : Environment} {manager after : NetworkManagerBase}
    {items : List (Nat × Network)} {merging : Merging} (finished : Finished env merging after)
    (stage : Stage env manager items merging)
    (handed : ∀ item ∈ items, item.1 < merging.heap.next)
    : CallEffect env manager items after where
  kept known := by
    rw [finished.networksMap]
    exact stage.kept known
  bound unknown found := by
    rw [finished.networksMap] at found
    exact stage.bound unknown found
  known item isItem := by
    rw [finished.networksMap]
    exact stage.known item isItem
  listed o := by
    rw [finished.networksMap, finished.networks.mem_iff]
    exact stage.merged_iff o
  addresses member found := by
    obtain ⟨network, live, sameKey, sameIPs⟩ := finished.backward found
    rw [sameKey, sameIPs]
    exact stage.addresses (finished.networks.mem_iff.mp member) live
  handed item isItem := by
    rw [finished.next]
    exact handed item isItem

/-- Networks in the order in which they are merged. -/
def arranged (env : Environment) (items : List (Nat × Network)) : List (Nat × Network) :=
  env.sort (fun a b => a.2.compareNetworks b.2) items

theorem arranged_perm (env : Environment) (items : List (Nat × Network))
    : (arranged env items).Perm items :=
  env.sort_perm _ items

/-- A run of `merge_network_list` on networks that are arranged already: the states after the two
loops, and the end.
-/
structure MergeRun (env : Environment) (manager : NetworkManagerBase) (heap : Heap Network)
    (items : List (Nat × Network)) (stats : Stats) (first : Consolidation) (merging : Merging)
    (result : MergeResult)
    : Prop where
  consolidates : (items.map Prod.fst).foldlM (consolidate env) ⟨heap, ∅, stats⟩ = some first
  loop : Consolidated env heap items first
  merges
    : first.consolidated.toList.foldlM mergeEntry
        ⟨first.heap, manager.networksMap, manager.nextAvailableNetworkId, [], false⟩ = some merging
  merged : Merged env first.heap manager.networksMap first.consolidated.toList merging
  changed
    : result.changed
      = (merging.changed || merging.mergedList.length != manager.networks.length)
  ends
    : applyChanges env (staged manager merging) merging.mergedList result.changed
      = some result.manager
  stats : result.stats = first.stats

/-- The networks of the entries are live, and none of them is one of the manager's. -/
theorem entries_live {env : Environment} {manager : NetworkManagerBase}
    (h : Registered env manager) {heap : Heap Network} {items : List (Nat × Network)}
    (handed : HandedOver manager heap items) {first : Consolidation}
    (loop : Consolidated env heap items first)
    : (∀ entry ∈ first.consolidated.toList, ∀ existing,
        manager.networksMap[entry.1]? = some existing → existing ≠ entry.2.net)
      ∧ ∀ entry ∈ first.consolidated.toList,
          (∃ network, first.heap.objects entry.2.net = some network)
          ∧ ∃ network, first.heap.objects (target manager.networksMap entry) = some network := by
  refine ⟨?_, ?_⟩
  · intro entry member existing known
    obtain ⟨-, -, older⟩ := entry_objects h handed loop member
    have := older existing known
    omega
  · intro entry member
    obtain ⟨⟨item, -, -, -, net⟩, ⟨network, found, -⟩, -⟩ := entry_objects h handed loop member
    exact ⟨⟨_, net⟩, _, found⟩

/-- `merge_network_list` succeeds on a registered manager. -/
theorem mergeNetworkList_run {env : Environment} {manager : NetworkManagerBase}
    (h : Registered env manager) {heap : Heap Network} {items : List (Nat × Network)}
    (handed : HandedOver manager heap items) (stats : Stats)
    : ∃ first merging result,
        mergeNetworkList env { manager with heap := heap } (items.map Prod.fst) stats = some result
        ∧ MergeRun env manager heap (arranged env items) stats first merging result := by
  have handedSorted := handed.perm (arranged_perm env items)
  obtain ⟨first, consolidates, loop⟩ := consolidate_all env heap stats handedSorted.live
    handedSorted.distinct handedSorted.addressed
  obtain ⟨apart, live⟩ := entries_live h handedSorted loop
  obtain ⟨merging, merges, merged⟩ := merge_all env first.heap manager.networksMap
    manager.nextAvailableNetworkId (entries_separate h handedSorted loop) apart live
  have stage := stage_of_loops h handedSorted loop merged
  have ends
      : ∃ after,
          applyChanges env (staged manager merging) merging.mergedList
            (merging.changed || merging.mergedList.length != manager.networks.length)
            = some after := by
    cases changed : merging.changed || merging.mergedList.length != manager.networks.length with
    | true =>
        obtain ⟨after, applies, -⟩ := stage.finished_changed
        exact ⟨after, applies⟩
    | false => exact ⟨_, rfl⟩
  obtain ⟨after, applies⟩ := ends
  refine ⟨first, merging, ⟨after, _, first.stats⟩, ?_,
    ⟨consolidates, loop, merges, merged, rfl, applies, rfl⟩⟩
  simp only [staged] at applies
  simp only [mergeNetworkList, sortObjects_eq env Network.compareNetworks handed.live,
    Option.bind_eq_bind, Option.bind_some]
  simp only [arranged] at consolidates
  simp only [consolidates, Option.bind_some, merges, applies]
  rfl

/-- What the loops of a run leave, whatever the order of the networks. -/
theorem MergeRun.stage {env : Environment} {manager : NetworkManagerBase} {heap : Heap Network}
    {items : List (Nat × Network)} {stats : Stats} {first : Consolidation} {merging : Merging}
    {result : MergeResult}
    (run : MergeRun env manager heap items stats first merging result)
    (h : Registered env manager) (handed : HandedOver manager heap items)
    : Stage env manager items merging :=
  stage_of_loops h handed run.loop run.merged

/-- A run ends as a merge may, by cases on whether it found a change. -/
theorem MergeRun.finished {env : Environment} {manager : NetworkManagerBase} {heap : Heap Network}
    {items : List (Nat × Network)} {stats : Stats} {first : Consolidation} {merging : Merging}
    {result : MergeResult}
    (run : MergeRun env manager heap items stats first merging result)
    (stage : Stage env manager items merging)
    : Finished env merging result.manager := by
  have ends := run.ends
  cases changed : result.changed with
  | true =>
      obtain ⟨after, applies, finished⟩ := stage.finished_changed
      rw [changed, applies] at ends
      cases ends
      exact finished
  | false =>
      have unchanged := run.changed
      rw [changed, eq_comm, Bool.or_eq_false_iff, bne_eq_false_iff_eq] at unchanged
      rw [changed] at ends
      have kept : staged manager merging = result.manager := Option.some.inj ends
      rw [← kept]
      exact stage.finished_unchanged unchanged.1 unchanged.2

/-- A call on a registered manager succeeds, leaves it registered and has the effect of a call. -/
theorem update_spec {env : Environment} {manager : NetworkManagerBase} (h : Registered env manager)
    (call : List NewNetwork)
    : ∃ result,
        update env manager call = some result
        ∧ Registered env result.manager
        ∧ CallEffect env manager (created env manager call) result.manager := by
  have handed := created_handedOver env manager call
  have permuted := arranged_perm env (created env manager call)
  obtain ⟨first, merging, result, runs, run⟩ := mergeNetworkList_run h handed {}
  have stage := run.stage h (handed.perm permuted)
  have allocated (item : Nat × Network) (isItem : item ∈ created env manager call)
      : item.1 < merging.heap.next := by
    rw [run.merged.next, run.loop.next]
    exact Heap.lt_next _ (handed.live item isItem)
  have finished := run.finished stage
  exact ⟨result, runs, finished.registered stage, finished.effect (stage.perm permuted) allocated⟩

-----------------------------------------------------------------------------------------
-- Sequences of calls
-----------------------------------------------------------------------------------------

/-- The networks created for a call are those of the call. -/
theorem created_snd (env : Environment) (manager : NetworkManagerBase) (call : List NewNetwork)
    : (created env manager call).map Prod.snd = call.map (NewNetwork.network env) := by
  obtain ⟨lengths, -⟩ := manager.heap.createAll_spec (call.map (NewNetwork.network env))
  exact List.map_snd_zip (by omega)

/-- Every network created for a call is made from one of the call. -/
theorem exists_new_of_created {env : Environment} {manager : NetworkManagerBase}
    {call : List NewNetwork} {item : Nat × Network} (isItem : item ∈ created env manager call)
    : ∃ new ∈ call, new.network env = item.2 := by
  have member := List.mem_map_of_mem (f := Prod.snd) isItem
  rw [created_snd] at member
  exact List.mem_map.mp member

/-- The keys of the networks created for a call are those of the call. -/
theorem created_key_iff (env : Environment) (manager : NetworkManagerBase)
    (call : List NewNetwork) (property : Text → Prop)
    : (∃ item ∈ created env manager call, property (item.2.mapKey env))
      ↔ ∃ new ∈ call, property (new.key env) := by
  constructor
  · intro ⟨item, isItem, holds⟩
    obtain ⟨new, isNew, same⟩ := exists_new_of_created isItem
    rw [← same] at holds
    exact ⟨new, isNew, holds⟩
  · intro ⟨new, isNew, holds⟩
    have member := List.mem_map_of_mem (f := NewNetwork.network env) isNew
    rw [← created_snd env manager] at member
    obtain ⟨item, isItem, same⟩ := List.mem_map.mp member
    exact ⟨item, isItem, by rw [same]; exact holds⟩

/-- A network of a call that is in the map is there under its own key. -/
theorem CallEffect.own_key {env : Environment} {before after : NetworkManagerBase}
    {items : List (Nat × Network)} (effect : CallEffect env before items after)
    (registered : Registered env before) {heap : Heap Network}
    (handed : HandedOver before heap items) {item : Nat × Network} (isItem : item ∈ items)
    {key : Text} (found : after.networksMap[key]? = some item.1)
    : item.2.mapKey env = key := by
  have unknown : before.networksMap[key]? = none := by
    by_contra known
    obtain ⟨existing, known⟩ := Option.ne_none_iff_exists'.mp known
    have same : existing = item.1 := Option.some.inj ((effect.kept known).symm.trans found)
    obtain ⟨network, filed, -⟩ := registered.filed known
    have old := before.heap.lt_next filed
    have new := handed.fresh item isItem
    omega
  obtain ⟨other, isOther, reference, ownKey⟩ := effect.bound unknown found
  have same : other = item := List.inj_on_of_nodup_map handed.distinct isOther isItem reference
  rw [← same, ownKey]

/-- A sequence of calls on a registered manager succeeds and leaves it registered; its map keeps
every binding and gains exactly the keys of the calls, by induction on the calls.
-/
theorem updates_from {env : Environment} {start : NetworkManagerBase} (h : Registered env start)
    (calls : List (List NewNetwork))
    : ∃ final,
        calls.foldlM
          (fun manager call => (update env manager call).map MergeResult.manager) start = some final
        ∧ Registered env final
        ∧ (∀ {key : Text} {o : Nat},
            start.networksMap[key]? = some o → final.networksMap[key]? = some o)
        ∧ ∀ key,
            (∃ o, final.networksMap[key]? = some o)
            ↔ (∃ o, start.networksMap[key]? = some o)
              ∨ ∃ call ∈ calls, ∃ new ∈ call, new.key env = key := by
  let invariant (done : List (List NewNetwork)) (manager : NetworkManagerBase) : Prop :=
    Registered env manager
    ∧ (∀ {key : Text} {o : Nat},
        start.networksMap[key]? = some o → manager.networksMap[key]? = some o)
    ∧ ∀ key,
        (∃ o, manager.networksMap[key]? = some o)
        ↔ (∃ o, start.networksMap[key]? = some o)
          ∨ ∃ call ∈ done, ∃ new ∈ call, new.key env = key
  have initial : invariant [] start := ⟨h, id, by simp⟩
  apply foldlM_invariant initial
  intro done call rest manager _ ⟨registered, kept, keys⟩
  obtain ⟨result, runs, next, effect⟩ := update_spec registered call
  refine ⟨result.manager, by rw [runs, Option.map_some], next, fun known => effect.kept (kept known),
    ?_⟩
  intro key
  have grows
      : (∃ o, result.manager.networksMap[key]? = some o)
        ↔ (∃ o, manager.networksMap[key]? = some o)
          ∨ ∃ item ∈ created env manager call, item.2.mapKey env = key := by
    constructor
    · intro ⟨o, found⟩
      cases known : manager.networksMap[key]? with
      | some existing => exact .inl ⟨existing, rfl⟩
      | none =>
          obtain ⟨item, isItem, -, ownKey⟩ := effect.bound known found
          exact .inr ⟨item, isItem, ownKey⟩
    · intro either
      rcases either with ⟨o, known⟩ | ⟨item, isItem, rfl⟩
      · exact ⟨o, effect.kept known⟩
      · exact effect.known item isItem
  rw [grows, keys, created_key_iff env manager call (· = key)]
  simp [or_assoc, or_and_right, exists_or]

/-- The registry after a sequence of calls, the latest of which took the manager from `before` to
`after`.
-/
structure RegistryAfter (env : Environment) (earlier : List (List NewNetwork))
    (latest : List NewNetwork) (before after : NetworkManagerBase)
    : Prop where
  /-- The map has the keys seen so far. -/
  keys
    : ∀ key : Text,
        (∃ o, after.networksMap[key]? = some o)
        ↔ ∃ call ∈ earlier ++ [latest], ∃ new ∈ call, new.key env = key
  /-- A new key is bound to a network of this call with that key. -/
  first
    : ∀ {key : Text} {o : Nat},
        before.networksMap[key]? = none
        → after.networksMap[key]? = some o
        → ∃ item ∈ created env before latest, item.1 = o ∧ item.2.mapKey env = key
  /-- No later sequence of calls binds a key again. -/
  forever
    : ∀ {key : Text} {o : Nat},
        after.networksMap[key]? = some o
        → ∀ later,
            ∃ final,
              updates env (earlier ++ [latest] ++ later) = some final
              ∧ final.networksMap[key]? = some o
  /-- The list has no duplicates. -/
  listed_nodup : after.networks.Nodup
  /-- The list has the networks of the map for the keys of this call. -/
  listed_iff
    : ∀ o, o ∈ after.networks ↔ ∃ new ∈ latest, after.networksMap[new.key env]? = some o
  /-- A network of the map is live, and active exactly when it is listed. -/
  active_iff
    : ∀ {key : Text} {o : Nat},
        after.networksMap[key]? = some o
        → ∃ network,
            after.heap.objects o = some network ∧ (network.active = true ↔ o ∈ after.networks)
  /-- A network of this call is adopted under its own key and not deleted, or not adopted and
  deleted once.
  -/
  handed
    : ∀ item ∈ created env before latest,
        (after.networksMap[item.2.mapKey env]? = some item.1 ∧ item.1 ∉ after.heap.deleted)
        ∨ ((∀ key : Text, after.networksMap[key]? ≠ some item.1)
          ∧ after.heap.deleted.count item.1 = 1)
  /-- So is every network handed over before. -/
  accounted
    : ∀ o < after.heap.next,
        ((∃ key : Text, after.networksMap[key]? = some o) ∧ o ∉ after.heap.deleted)
        ∨ ((∀ key : Text, after.networksMap[key]? ≠ some o) ∧ after.heap.deleted.count o = 1)
  /-- A listed network has the addresses of the networks of this call with its key. -/
  addresses
    : ∀ {key : Text} {o : Nat} {network : Network},
        after.networksMap[key]? = some o
        → o ∈ after.networks
        → after.heap.objects o = some network
        → network.ips.Perm
            ((filedUnder env (created env before latest) key).flatMap fun item => item.2.ips)

/-- In a registered manager a network is in the map and not deleted, or not in the map and deleted
once.
-/
theorem Registered.accounted {env : Environment} {manager : NetworkManagerBase}
    (h : Registered env manager) {o : Nat} (allocated : o < manager.heap.next)
    : ((∃ key : Text, manager.networksMap[key]? = some o) ∧ o ∉ manager.heap.deleted)
      ∨ ((∀ key : Text, manager.networksMap[key]? ≠ some o) ∧ manager.heap.deleted.count o = 1) := by
  cases found : manager.heap.objects o with
  | some network =>
      left
      refine ⟨⟨_, h.adopted found⟩, ?_⟩
      rw [manager.heap.mem_deleted, found]
      simp
  | none =>
      right
      refine ⟨?_, ?_⟩
      · intro key filed
        obtain ⟨network, live, -⟩ := h.filed filed
        cases found.symm.trans live
      · exact List.count_eq_one_of_mem manager.heap.deleted_nodup
          (manager.heap.mem_deleted.mpr ⟨allocated, found⟩)

/-- After each call of any sequence of calls, whether or not the call reports a change, the map
binds the keys seen so far for good, the list holds the networks of the latest keys, and every
network handed over is either adopted or deleted.
-/
theorem registry_after_each_call (env : Environment) (earlier : List (List NewNetwork))
    (latest : List NewNetwork)
    : ∃ before result,
        updates env earlier = some before
        ∧ update env before latest = some result
        ∧ updates env (earlier ++ [latest]) = some result.manager
        ∧ RegistryAfter env earlier latest before result.manager := by
  obtain ⟨before, runs, registered, -, seen⟩ :=
    updates_from (Registered.construct env) earlier
  obtain ⟨result, merges, next, effect⟩ := update_spec registered latest
  have runsLatest : updates env (earlier ++ [latest]) = some result.manager := by
    rw [updates, List.foldlM_append, runs]
    simp [merges]
  refine ⟨before, result, runs, merges, runsLatest, ?_⟩
  exact
    { keys := by
        obtain ⟨after, runsAll, -, -, all⟩ :=
          updates_from (Registered.construct env) (earlier ++ [latest])
        have same : after = result.manager :=
          Option.some.inj (runsAll.symm.trans runsLatest)
        intro key
        rw [← same, all]
        simp [NetworkManagerBase.construct]
      first := effect.bound
      forever := by
        intro key o found later
        obtain ⟨final, runsLater, -, kept, -⟩ := updates_from next later
        refine ⟨final, ?_, kept found⟩
        rw [updates, List.foldlM_append, ← updates, runsLatest]
        exact runsLater
      listed_nodup := next.distinct
      listed_iff := by
        intro o
        rw [effect.listed, created_key_iff env before latest
          (fun key => result.manager.networksMap[key]? = some o)]
      active_iff := by
        intro key o found
        obtain ⟨network, live, -⟩ := next.filed found
        exact ⟨network, live, next.active_iff live⟩
      handed := by
        intro item isItem
        rcases next.accounted (effect.handed item isItem) with ⟨⟨key, found⟩, kept⟩ | discarded
        · have ownKey := effect.own_key registered (created_handedOver env before latest) isItem found
          exact .inl ⟨by rw [ownKey, found], kept⟩
        · exact .inr discarded
      accounted := fun _ allocated => next.accounted allocated
      addresses := by
        intro key o network found listed live
        obtain ⟨filedNetwork, filed, ownKey⟩ := next.filed found
        cases live.symm.trans filed
        rw [← ownKey]
        exact effect.addresses listed live }

end RtcBase.Networks
