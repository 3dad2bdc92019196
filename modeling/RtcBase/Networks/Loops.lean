import RtcBase.Library.Runs
import RtcBase.Networks.Manager

/-! What the loops of `merge_network_list` do to the heap and to the map. Each loop has an
invariant over the items that it has done.
-/

namespace RtcBase.Networks

open Library

-----------------------------------------------------------------------------------------
-- Sorting references
-----------------------------------------------------------------------------------------

/-- References with the objects that they lead to, all of them live. -/
def Live (heap : Heap Network) (items : List (Nat × Network)) : Prop :=
  ∀ item ∈ items, heap.objects item.1 = some item.2

/-- Looking live references up succeeds, by induction on the references. -/
theorem mapM_live {heap : Heap Network} {items : List (Nat × Network)} (live : Live heap items)
    : ((items.map Prod.fst).mapM fun o => (heap.objects o).map fun network => (o, network))
      = some items := by
  induction items with
  | nil => rfl
  | cons item rest ih =>
      have first := live item (by simp)
      have later : Live heap rest := fun other member => live other (by simp [member])
      simp [first, ih later]

/-- Sorting live references sorts them with their objects. -/
theorem sortObjects_eq (env : Environment) {heap : Heap Network} (less : Network → Network → Bool)
    {items : List (Nat × Network)} (live : Live heap items)
    : sortObjects env heap less (items.map Prod.fst)
      = some ((env.sort (fun a b => less a.2 b.2) items).map Prod.fst) := by
  rw [sortObjects, mapM_live live]
  rfl

/-- Sorting live references permutes them. -/
theorem sortObjects_spec (env : Environment) {heap : Heap Network} (less : Network → Network → Bool)
    {items : List (Nat × Network)} (live : Live heap items)
    : ∃ sorted : List (Nat × Network),
        sorted.Perm items
        ∧ sortObjects env heap less (items.map Prod.fst) = some (sorted.map Prod.fst) :=
  ⟨env.sort (fun a b => less a.2 b.2) items, env.sort_perm _ _, sortObjects_eq env less live⟩

-----------------------------------------------------------------------------------------
-- The first loop
-----------------------------------------------------------------------------------------

/-- The items filed under a key, in order. -/
def filedUnder (env : Environment) (items : List (Nat × Network)) (key : Text)
    : List (Nat × Network) :=
  items.filter fun item => item.2.mapKey env = key

/-- The entry that the first loop builds for a key: the first network with the key, and the
addresses of all of them.
-/
def gathered (env : Environment) (items : List (Nat × Network)) (key : Text)
    : Option AddressList :=
  (filedUnder env items key).head?.map fun first =>
    ⟨first.1, (filedUnder env items key).flatMap fun item => item.2.ips⟩

/-- The first loop, with the items that it has done: of the networks with one key the first stays
and the others are deleted.
-/
structure Consolidated (env : Environment) (start : Heap Network) (done : List (Nat × Network))
    (state : Consolidation)
    : Prop where
  entries : ∀ key, state.consolidated[key]? = gathered env done key
  kept
    : ∀ {key : Text} {addresses : AddressList},
        gathered env done key = some addresses
        → state.heap.objects addresses.net = start.objects addresses.net
  discarded
    : ∀ item ∈ done,
        (gathered env done (item.2.mapKey env)).map AddressList.net ≠ some item.1
        → state.heap.objects item.1 = none
  others : ∀ o, o ∉ done.map Prod.fst → state.heap.objects o = start.objects o
  next : state.heap.next = start.next

/-- An entry after one more item, by cases on whether the item has the key. -/
theorem gathered_append (env : Environment) (done : List (Nat × Network)) (item : Nat × Network)
    (key : Text)
    : gathered env (done ++ [item]) key
      = if item.2.mapKey env = key then
          match gathered env done key with
          | none => some ⟨item.1, item.2.ips⟩
          | some current => some { current with ips := current.ips ++ item.2.ips }
        else gathered env done key := by
  have appended
      : filedUnder env (done ++ [item]) key
        = filedUnder env done key ++ if item.2.mapKey env = key then [item] else [] := by
    by_cases same : item.2.mapKey env = key <;> simp [filedUnder, same]
  by_cases same : item.2.mapKey env = key
  · rw [if_pos same] at appended ⊢
    cases earlier : filedUnder env done key with
    | nil => simp [gathered, appended, earlier]
    | cons first rest => simp [gathered, appended, earlier]
  · rw [if_neg same, List.append_nil] at appended
    simp [gathered, appended, same]

/-- The network of an entry is one of the items and has the key. -/
theorem gathered_mem {env : Environment} {items : List (Nat × Network)} {key : Text}
    {addresses : AddressList} (found : gathered env items key = some addresses)
    : ∃ item ∈ items, item.1 = addresses.net ∧ item.2.mapKey env = key := by
  simp only [gathered, Option.map_eq_some_iff] at found
  obtain ⟨first, head, rfl⟩ := found
  have member := List.mem_of_head? head
  simp only [filedUnder, List.mem_filter, decide_eq_true_eq] at member
  exact ⟨first, member.1, rfl, member.2⟩

/-- A key without an entry is the key of no item. -/
theorem gathered_eq_none {env : Environment} {items : List (Nat × Network)} {key : Text}
    : gathered env items key = none ↔ ∀ item ∈ items, item.2.mapKey env ≠ key := by
  simp [gathered, filedUnder]

/-- A network whose key has no entry yet makes one. -/
theorem gathered_append_of_none {env : Environment} {done : List (Nat × Network)}
    {item : Nat × Network} (new : gathered env done (item.2.mapKey env) = none) (key : Text)
    : gathered env (done ++ [item]) key
      = if item.2.mapKey env = key then some ⟨item.1, item.2.ips⟩ else gathered env done key := by
  by_cases isKey : item.2.mapKey env = key
  · subst isKey
    simp [gathered_append, new]
  · simp [gathered_append, isKey]

/-- A network whose key has an entry adds its addresses to it. -/
theorem gathered_append_of_some {env : Environment} {done : List (Nat × Network)}
    {item : Nat × Network} {current : AddressList}
    (known : gathered env done (item.2.mapKey env) = some current) (key : Text)
    : gathered env (done ++ [item]) key
      = if item.2.mapKey env = key then some { current with ips := current.ips ++ item.2.ips }
        else gathered env done key := by
  by_cases isKey : item.2.mapKey env = key
  · subst isKey
    simp [gathered_append, known]
  · simp [gathered_append, isKey]

/-- Such a network replaces that of no entry. -/
theorem gathered_append_net {env : Environment} {done : List (Nat × Network)}
    {item : Nat × Network} {current : AddressList}
    (known : gathered env done (item.2.mapKey env) = some current) (key : Text)
    : (gathered env (done ++ [item]) key).map AddressList.net
      = (gathered env done key).map AddressList.net := by
  rw [gathered_append_of_some known]
  split_ifs with isKey
  · rw [← isKey, known]
    rfl
  · rfl

/-- One round of the first loop on the first network with its key, which stays. -/
theorem Consolidated.round_first {env : Environment} {start : Heap Network}
    {done : List (Nat × Network)} {state : Consolidation}
    (h : Consolidated env start done state) {item : Nat × Network}
    (live : state.heap.objects item.1 = some item.2) (same : start.objects item.1 = some item.2)
    (addressed : item.2.ips ≠ []) (new : gathered env done (item.2.mapKey env) = none)
    : ∃ next, consolidate env state item.1 = some next
        ∧ Consolidated env start (done ++ [item]) next := by
  obtain ⟨first, rest, ips⟩ := List.exists_cons_of_ne_nil addressed
  have absent : state.consolidated[item.2.mapKey env]? = none := by rw [h.entries, new]
  have entry := gathered_append_of_none new
  refine ⟨{ state with
    consolidated := state.consolidated.insert (item.2.mapKey env) ⟨item.1, item.2.ips⟩
    stats := state.stats.count first }, by simp [consolidate, live, absent, ips], ?_⟩
  refine ⟨?_, ?_, ?_, ?_, h.next⟩
  · intro key
    rw [entry, Std.ExtTreeMap.getElem?_insert]
    simp only [Std.compare_eq_iff_eq, h.entries]
  · intro key addresses found
    rw [entry] at found
    split_ifs at found with isKey
    · cases found
      exact live.trans same.symm
    · exact h.kept found
  · intro other member replaced
    rcases List.mem_append.mp member with member | isItem
    · have otherKey := gathered_eq_none.mp new other member
      rw [entry, if_neg (Ne.symm otherKey)] at replaced
      exact h.discarded other member replaced
    · obtain rfl := List.mem_singleton.mp isItem
      rw [entry, if_pos rfl] at replaced
      exact absurd rfl replaced
  · intro o outside
    apply h.others o
    intro member
    exact outside (by simp [List.map_append, member])

/-- One round of the first loop on a further network with a key, which is deleted. -/
theorem Consolidated.round_further {env : Environment} {start : Heap Network}
    {done : List (Nat × Network)} {state : Consolidation}
    (h : Consolidated env start done state) {item : Nat × Network}
    (fresh : item.1 ∉ done.map Prod.fst) (live : state.heap.objects item.1 = some item.2)
    {current : AddressList} (known : gathered env done (item.2.mapKey env) = some current)
    : ∃ next, consolidate env state item.1 = some next
        ∧ Consolidated env start (done ++ [item]) next := by
  have present : state.consolidated[item.2.mapKey env]? = some current := by rw [h.entries, known]
  obtain ⟨heap, deleted, objects, next⟩ := Heap.delete_spec live
  have entry := gathered_append_of_some known
  have net := gathered_append_net known
  refine ⟨{ state with
    heap := heap
    consolidated := state.consolidated.insert (item.2.mapKey env)
      { current with ips := current.ips ++ item.2.ips } },
    by simp [consolidate, live, present, deleted], ?_⟩
  refine ⟨?_, ?_, ?_, ?_, next.trans h.next⟩
  · intro key
    rw [entry, Std.ExtTreeMap.getElem?_insert]
    simp only [Std.compare_eq_iff_eq, h.entries]
  · intro key addresses found
    -- the network of an entry is an earlier item, so it is not the one deleted here
    have earlier : ∃ before, gathered env done key = some before ∧ before.net = addresses.net := by
      have nets := net key
      rw [found] at nets
      obtain ⟨before, entries, same⟩ := Option.map_eq_some_iff.mp nets.symm
      exact ⟨before, entries, same⟩
    obtain ⟨before, entries, same⟩ := earlier
    obtain ⟨other, member, reference, -⟩ := gathered_mem entries
    have distinct : addresses.net ≠ item.1 := by
      intro isItem
      exact fresh (List.mem_map.mpr ⟨other, member, by rw [reference, same, isItem]⟩)
    simp only [objects, Function.update_of_ne distinct]
    rw [← same]
    exact h.kept entries
  · intro other member replaced
    rw [net] at replaced
    rcases List.mem_append.mp member with member | isItem
    · have distinct : other.1 ≠ item.1 := by
        intro isItem
        exact fresh (List.mem_map.mpr ⟨other, member, isItem⟩)
      simp only [objects, Function.update_of_ne distinct]
      exact h.discarded other member replaced
    · obtain rfl := List.mem_singleton.mp isItem
      simp [objects]
  · intro o outside
    have distinct : o ≠ item.1 := by
      rintro rfl
      exact outside (by simp)
    simp only [objects, Function.update_of_ne distinct]
    apply h.others o
    intro member
    exact outside (by simp [List.map_append, member])

/-- The first loop succeeds on distinct live networks with addresses, whatever their order. -/
theorem consolidate_all (env : Environment) (heap : Heap Network) (stats : Stats)
    {items : List (Nat × Network)} (live : Live heap items)
    (distinct : (items.map Prod.fst).Nodup) (addressed : ∀ item ∈ items, item.2.ips ≠ [])
    : ∃ final,
        (items.map Prod.fst).foldlM (consolidate env) ⟨heap, ∅, stats⟩ = some final
        ∧ Consolidated env heap items final := by
  have start : Consolidated env heap [] ⟨heap, ∅, stats⟩ :=
    ⟨by simp [gathered, filedUnder], by simp [gathered, filedUnder], by simp, by simp, rfl⟩
  rw [List.foldlM_map]
  apply foldlM_invariant start
  intro done item rest state split holds
  have here : item ∈ items := by simp [split]
  have fresh : item.1 ∉ done.map Prod.fst := by
    rw [split, List.map_append, List.map_cons] at distinct
    intro member
    exact List.disjoint_of_nodup_append distinct member (by simp)
  have found := (holds.others _ fresh).trans (live item here)
  cases known : gathered env done (item.2.mapKey env) with
  | none => exact holds.round_first found (live item here) (addressed item here) known
  | some current => exact holds.round_further fresh found known

-----------------------------------------------------------------------------------------
-- The second loop
-----------------------------------------------------------------------------------------

/-- The network that stands for a key after the merge: the one that the map holds, or else the new
one.
-/
def target (networksMap : Std.ExtTreeMap Text Nat) (entry : Text × AddressList) : Nat :=
  networksMap[entry.1]?.getD entry.2.net

/-- Two entries have different keys and concern different objects. -/
structure Separate (networksMap : Std.ExtTreeMap Text Nat) (a b : Text × AddressList) : Prop where
  keys : a.1 ≠ b.1
  targets : target networksMap a ≠ target networksMap b
  target_net : target networksMap a ≠ b.2.net
  net_target : a.2.net ≠ target networksMap b
  nets : a.2.net ≠ b.2.net

/-- The second loop, with the entries that it has done. -/
structure Merged (env : Environment) (start : Heap Network)
    (networksMap : Std.ExtTreeMap Text Nat) (done : List (Text × AddressList)) (state : Merging)
    : Prop where
  filed
    : ∀ key,
        state.networksMap[key]?
          = networksMap[key]?.or
              ((done.find? fun entry => entry.1 = key).map fun entry => entry.2.net)
  list : state.mergedList = done.map (target networksMap)
  updated
    : ∀ entry ∈ done,
        ∃ network after,
          start.objects (target networksMap entry) = some network
          ∧ state.heap.objects (target networksMap entry) = some after
          ∧ after.ips = entry.2.ips
          ∧ after.active = network.active
          ∧ after.mapKey env = network.mapKey env
  discarded
    : ∀ entry ∈ done,
        networksMap[entry.1]? ≠ none → state.heap.objects entry.2.net = none
  others
    : ∀ o,
        (∀ entry ∈ done, target networksMap entry ≠ o ∧ entry.2.net ≠ o)
        → state.heap.objects o = start.objects o
  next : state.heap.next = start.next
  unchanged
    : state.changed = false
      → ∀ entry ∈ done,
          ∃ existing network,
            networksMap[entry.1]? = some existing
            ∧ start.objects existing = some network
            ∧ network.active = true

/-- The entry at hand has not been touched by the earlier rounds. -/
theorem Merged.pending {env : Environment} {start : Heap Network}
    {networksMap : Std.ExtTreeMap Text Nat} {done : List (Text × AddressList)} {state : Merging}
    (h : Merged env start networksMap done state) {entry : Text × AddressList}
    (separate : ∀ other ∈ done, Separate networksMap other entry)
    : (done.find? fun other => other.1 = entry.1) = none
      ∧ state.networksMap[entry.1]? = networksMap[entry.1]?
      ∧ state.heap.objects (target networksMap entry) = start.objects (target networksMap entry)
      ∧ state.heap.objects entry.2.net = start.objects entry.2.net := by
  have notDone : (done.find? fun other => other.1 = entry.1) = none := by
    rw [List.find?_eq_none]
    intro other member
    simpa using (separate other member).keys
  refine ⟨notDone, ?_, ?_, ?_⟩
  · rw [h.filed, notDone, Option.map_none, Option.or_none]
  · exact h.others _ (fun other member =>
      ⟨(separate other member).targets, (separate other member).net_target⟩)
  · exact h.others _ (fun other member =>
      ⟨(separate other member).target_net, (separate other member).nets⟩)

/-- What one round of the second loop does. -/
structure EntryEffect (env : Environment) (entry : Text × AddressList) (state next : Merging)
    : Prop where
  filed
    : ∀ key : Text,
        next.networksMap[key]?
          = if entry.1 = key then some (target state.networksMap entry)
            else state.networksMap[key]?
  list : next.mergedList = state.mergedList ++ [target state.networksMap entry]
  updated
    : ∃ network after,
        state.heap.objects (target state.networksMap entry) = some network
        ∧ next.heap.objects (target state.networksMap entry) = some after
        ∧ after.ips = entry.2.ips
        ∧ after.active = network.active
        ∧ after.mapKey env = network.mapKey env
  discarded : state.networksMap[entry.1]? ≠ none → next.heap.objects entry.2.net = none
  frame
    : ∀ o,
        target state.networksMap entry ≠ o
        → entry.2.net ≠ o
        → next.heap.objects o = state.heap.objects o
  sameNext : next.heap.next = state.heap.next
  unchanged
    : next.changed = false
      → state.changed = false
        ∧ ∃ existing network,
            state.networksMap[entry.1]? = some existing
            ∧ state.heap.objects existing = some network
            ∧ network.active = true

/-- A round on a new key adopts its network. -/
theorem mergeEntry_new (env : Environment) {entry : Text × AddressList} {state : Merging}
    (new : state.networksMap[entry.1]? = none) {network : Network}
    (live : state.heap.objects entry.2.net = some network)
    : ∃ next, mergeEntry state entry = some next ∧ EntryEffect env entry state next := by
  have isNet : target state.networksMap entry = entry.2.net := by simp [target, new]
  obtain ⟨heap, modified, objects, next⟩ := Heap.modify_spec live fun network =>
    ({ network with id := state.nextAvailableNetworkId }.setIPs entry.2.ips true).2
  have adopted := congrFun objects entry.2.net
  rw [Function.update_self] at adopted
  refine ⟨⟨heap, state.networksMap.insert entry.1 entry.2.net, state.nextAvailableNetworkId + 1,
    state.mergedList ++ [entry.2.net], true⟩, by simp [mergeEntry, new, modified], ?_⟩
  exact
    { filed := by
        intro key
        rw [Std.ExtTreeMap.getElem?_insert]
        simp only [Std.compare_eq_iff_eq, isNet]
      list := by rw [isNet]
      updated := by
        rw [isNet]
        exact ⟨network, _, live, adopted, rfl, rfl, rfl⟩
      discarded := fun known => absurd new known
      frame := fun o _ other => by rw [objects, Function.update_of_ne (Ne.symm other)]
      sameNext := next
      unchanged := by simp }

/-- Taking the type over changes nothing else. -/
theorem takeType_spec (env : Environment) {heap : Heap Network} {existing : Nat}
    {current : Network} (live : heap.objects existing = some current) (existingNet net : Network)
    : ∃ retyped after,
        takeType heap existing existingNet net = some retyped
        ∧ retyped.objects = Function.update heap.objects existing (some after)
        ∧ retyped.next = heap.next
        ∧ after.ips = current.ips
        ∧ after.active = current.active
        ∧ after.mapKey env = current.mapKey env := by
  by_cases differs : newType existingNet net = true
  · obtain ⟨retyped, modified, written, sameNext⟩ := Heap.modify_spec live fun network =>
      { network with type := net.type }
    exact ⟨retyped, _, (if_pos differs).trans modified, written, sameNext, rfl, rfl, rfl⟩
  · refine ⟨heap, current, if_neg differs, ?_, rfl, rfl, rfl, rfl⟩
    rw [← live, Function.update_eq_self]

/-- A round on a known key gives the addresses to the network that the map holds and deletes the
new one.
-/
theorem mergeEntry_known (env : Environment) {entry : Text × AddressList} {state : Merging}
    {existing : Nat} (known : state.networksMap[entry.1]? = some existing)
    (distinct : existing ≠ entry.2.net) {existingNet net : Network}
    (live : state.heap.objects existing = some existingNet)
    (liveNet : state.heap.objects entry.2.net = some net)
    : ∃ next, mergeEntry state entry = some next ∧ EntryEffect env entry state next := by
  have isExisting : target state.networksMap entry = existing := by simp [target, known]
  obtain ⟨addressed, setIPs, objects, next⟩ := Heap.modify_spec live fun network =>
    (network.setIPs entry.2.ips true).2
  have readNet : addressed.objects entry.2.net = some net := by
    rw [objects, Function.update_of_ne (Ne.symm distinct), liveNet]
  have readExisting := congrFun objects existing
  rw [Function.update_self] at readExisting
  obtain ⟨retyped, after, typed, written, typedNext, ips, active, key⟩ :=
    takeType_spec env readExisting existingNet net
  have stillNet : retyped.objects entry.2.net = some net := by
    rw [written, Function.update_of_ne (Ne.symm distinct), readNet]
  obtain ⟨heap, deleted, remaining, deletedNext⟩ := Heap.delete_spec stillNet
  refine ⟨{ state with
    heap := heap
    mergedList := state.mergedList ++ [existing]
    changed := (existingNet.setIPs entry.2.ips state.changed).1 || newType existingNet net
      || !existingNet.active }, ?_, ?_⟩
  · simp only [mergeEntry, known, live, setIPs, readNet, Option.bind_eq_bind, Option.bind_some,
      typed, deleteOther, if_pos distinct, deleted]
  exact
    { filed := by
        intro name
        by_cases isKey : entry.1 = name
        · rw [if_pos isKey, isExisting, ← isKey, known]
        · rw [if_neg isKey]
      list := by rw [isExisting]
      updated := by
        rw [isExisting]
        refine ⟨existingNet, after, live, ?_, ips, active, key⟩
        rw [remaining, Function.update_of_ne distinct, written, Function.update_self]
      discarded := fun _ => by rw [remaining, Function.update_self]
      frame := by
        intro o notTarget notNet
        rw [isExisting] at notTarget
        rw [remaining, Function.update_of_ne (Ne.symm notNet), written,
          Function.update_of_ne (Ne.symm notTarget), objects,
          Function.update_of_ne (Ne.symm notTarget)]
      sameNext := deletedNext.trans (typedNext.trans next)
      unchanged := by
        intro same
        simp only [Network.setIPs, Bool.or_eq_false_iff, Bool.not_eq_false'] at same
        exact ⟨same.1.1.1.1, existing, existingNet, known, live, same.2⟩ }

/-- A round of the second loop leaves what the earlier rounds did, since its entry is separate from
theirs, and adds its own entry.
-/
theorem Merged.round {env : Environment} {start : Heap Network}
    {networksMap : Std.ExtTreeMap Text Nat} {done : List (Text × AddressList)}
    {state next : Merging} (h : Merged env start networksMap done state)
    {entry : Text × AddressList} (separate : ∀ other ∈ done, Separate networksMap other entry)
    (effect : EntryEffect env entry state next)
    : Merged env start networksMap (done ++ [entry]) next := by
  obtain ⟨notDone, lookup, sameTarget, -⟩ := h.pending separate
  have isTarget : target state.networksMap entry = target networksMap entry := by
    rw [target, target, lookup]
  obtain ⟨filed, list, updated, discarded, frame, sameNext, unchanged⟩ := effect
  rw [isTarget] at list updated
  simp only [isTarget] at filed frame
  rw [lookup] at discarded unchanged
  refine ⟨?_, ?_, ?_, ?_, ?_, sameNext.trans h.next, ?_⟩
  · intro key
    rw [filed, h.filed, List.find?_append]
    by_cases isKey : entry.1 = key
    · subst isKey
      cases known : networksMap[entry.1]? with
      | none => simp [target, known, notDone]
      | some existing => simp [target, known]
    · simp [isKey]
  · rw [list, h.list, List.map_append, List.map_singleton]
  · intro other member
    rcases List.mem_append.mp member with member | isEntry
    · have apart := separate other member
      obtain ⟨before, after, existed, exists_, facts⟩ := h.updated other member
      refine ⟨before, after, existed, ?_, facts⟩
      rw [frame _ (Ne.symm apart.targets) (Ne.symm apart.target_net), exists_]
    · obtain rfl := List.mem_singleton.mp isEntry
      obtain ⟨before, after, existed, facts⟩ := updated
      exact ⟨before, after, sameTarget.symm.trans existed, facts⟩
  · intro other member known
    rcases List.mem_append.mp member with member | isEntry
    · have apart := separate other member
      rw [frame _ (Ne.symm apart.net_target) (Ne.symm apart.nets), h.discarded other member known]
    · obtain rfl := List.mem_singleton.mp isEntry
      exact discarded known
  · intro o outside
    have here := outside entry (by simp)
    rw [frame o here.1 here.2]
    exact h.others o (fun other member => outside other (by simp [member]))
  · intro same other member
    obtain ⟨before, existing, network, known, live, active⟩ := unchanged same
    rcases List.mem_append.mp member with member | isEntry
    · exact h.unchanged before other member
    · obtain rfl := List.mem_singleton.mp isEntry
      have isExisting : target networksMap other = existing := by simp [target, known]
      rw [isExisting] at sameTarget
      exact ⟨existing, network, known, sameTarget.symm.trans live, active⟩

/-- A round of the second loop succeeds on an entry that the earlier rounds did not touch. -/
theorem Merged.effect {env : Environment} {start : Heap Network}
    {networksMap : Std.ExtTreeMap Text Nat} {done : List (Text × AddressList)} {state : Merging}
    (h : Merged env start networksMap done state) {entry : Text × AddressList}
    (separate : ∀ other ∈ done, Separate networksMap other entry)
    (apart : ∀ existing, networksMap[entry.1]? = some existing → existing ≠ entry.2.net)
    {net network : Network} (liveNet : start.objects entry.2.net = some net)
    (liveTarget : start.objects (target networksMap entry) = some network)
    : ∃ next, mergeEntry state entry = some next ∧ EntryEffect env entry state next := by
  obtain ⟨-, lookup, sameTarget, sameNet⟩ := h.pending separate
  cases known : networksMap[entry.1]? with
  | none => exact mergeEntry_new env (lookup.trans known) (sameNet.trans liveNet)
  | some existing =>
      have isExisting : target networksMap entry = existing := by simp [target, known]
      rw [isExisting] at liveTarget sameTarget
      exact mergeEntry_known env (lookup.trans known) (apart existing known)
        (sameTarget.trans liveTarget) (sameNet.trans liveNet)

/-- The second loop succeeds on separate entries whose networks are live. -/
theorem merge_all (env : Environment) (heap : Heap Network)
    (networksMap : Std.ExtTreeMap Text Nat) (nextId : BitVec 16)
    {entries : List (Text × AddressList)} (separate : entries.Pairwise (Separate networksMap))
    (apart
      : ∀ entry ∈ entries, ∀ existing,
          networksMap[entry.1]? = some existing → existing ≠ entry.2.net)
    (live
      : ∀ entry ∈ entries,
          (∃ network, heap.objects entry.2.net = some network)
          ∧ ∃ network, heap.objects (target networksMap entry) = some network)
    : ∃ final,
        entries.foldlM mergeEntry ⟨heap, networksMap, nextId, [], false⟩ = some final
        ∧ Merged env heap networksMap entries final := by
  have start : Merged env heap networksMap [] ⟨heap, networksMap, nextId, [], false⟩ :=
    ⟨by simp, rfl, by simp, by simp, by simp, rfl, by simp⟩
  apply foldlM_invariant start
  intro done entry rest state split holds
  have here : entry ∈ entries := by simp [split]
  have fromEarlier : ∀ other ∈ done, Separate networksMap other entry := by
    intro other member
    rw [split] at separate
    exact (List.pairwise_append.mp separate).2.2 other member entry (by simp)
  obtain ⟨⟨net, liveNet⟩, network, liveTarget⟩ := live entry here
  obtain ⟨next, succeeds, does⟩ :=
    holds.effect fromEarlier (apart entry here) liveNet liveTarget
  exact ⟨next, succeeds, holds.round fromEarlier does⟩

-----------------------------------------------------------------------------------------
-- The loops of a changed list
-----------------------------------------------------------------------------------------

/-- Resetting the active states of distinct live networks sets each one's state and nothing else,
with an invariant over the entries that are done.
-/
theorem resetActive_all (networks : List Nat) {heap : Heap Network} {entries : List (Text × Nat)}
    (distinct : (entries.map Prod.snd).Nodup)
    (live : ∀ entry ∈ entries, ∃ network, heap.objects entry.2 = some network)
    : ∃ final,
        entries.foldlM (resetActive networks) heap = some final
        ∧ (∀ entry ∈ entries,
            final.objects entry.2
              = (heap.objects entry.2).map fun network =>
                  { network with active := networks.contains entry.2 })
        ∧ (∀ o, o ∉ entries.map Prod.snd → final.objects o = heap.objects o)
        ∧ final.next = heap.next := by
  let invariant (done : List (Text × Nat)) (state : Heap Network) : Prop :=
    (∀ entry ∈ done,
      state.objects entry.2
        = (heap.objects entry.2).map fun network =>
            { network with active := networks.contains entry.2 })
    ∧ (∀ o, o ∉ done.map Prod.snd → state.objects o = heap.objects o)
    ∧ state.next = heap.next
  have start : invariant [] heap := ⟨by simp, by simp, rfl⟩
  apply foldlM_invariant start
  intro done entry rest state split ⟨reset, others, next⟩
  have fresh : entry.2 ∉ done.map Prod.snd := by
    rw [split, List.map_append, List.map_cons] at distinct
    intro member
    exact List.disjoint_of_nodup_append distinct member (by simp)
  obtain ⟨network, found⟩ := live entry (by simp [split])
  obtain ⟨after, modified, objects, sameNext⟩ := Heap.modify_spec ((others _ fresh).trans found)
    fun network => { network with active := networks.contains entry.2 }
  refine ⟨after, modified, ?_, ?_, sameNext.trans next⟩
  · intro other member
    rcases List.mem_append.mp member with member | isEntry
    · have apart : other.2 ≠ entry.2 := by
        intro same
        exact fresh (List.mem_map.mpr ⟨other, member, same⟩)
      rw [objects, Function.update_of_ne apart]
      exact reset other member
    · obtain rfl := List.mem_singleton.mp isEntry
      rw [objects, Function.update_self, found, Option.map_some]
  · intro o outside
    have apart : o ≠ entry.2 := by
      rintro rfl
      exact outside (by simp)
    rw [objects, Function.update_of_ne apart]
    apply others o
    intro member
    exact outside (by simp [List.map_append, member])

/-- A network apart from its preference. -/
def unranked (network : Network) : Network := { network with preference := 0 }

/-- Assigning preferences to live networks changes nothing else, by induction on the networks. -/
theorem assignPreferences_spec {heap : Heap Network} {list : List Nat}
    (live : ∀ o ∈ list, ∃ network, heap.objects o = some network) (pref : Nat)
    : ∃ final,
        assignPreferences heap pref list = some final
        ∧ (∀ o, (final.objects o).map unranked = (heap.objects o).map unranked)
        ∧ final.next = heap.next := by
  induction list generalizing heap pref with
  | nil => exact ⟨heap, rfl, fun _ => rfl, rfl⟩
  | cons o rest ih =>
      obtain ⟨network, found⟩ := live o (by simp)
      obtain ⟨ranked, modified, objects, next⟩ := Heap.modify_spec found fun network =>
        { network with preference := pref }
      have same (other : Nat)
          : (ranked.objects other).map unranked = (heap.objects other).map unranked := by
        by_cases isFirst : other = o
        · rw [isFirst, objects, Function.update_self, found]
          rfl
        · rw [objects, Function.update_of_ne isFirst]
      by_cases more : pref > 0
      · have later : ∀ other ∈ rest, ∃ network, ranked.objects other = some network := by
          intro other member
          obtain ⟨before, existed⟩ := live other (by simp [member])
          have kept := same other
          rw [existed, Option.map_some, Option.map_eq_some_iff] at kept
          obtain ⟨after, exists_, -⟩ := kept
          exact ⟨after, exists_⟩
        obtain ⟨final, runs, unchanged, lastNext⟩ := ih later (pref - 1)
        refine ⟨final, ?_, fun other => (unchanged other).trans (same other),
          lastNext.trans next⟩
        simp [assignPreferences, modified, more, runs]
      · exact ⟨ranked, by simp [assignPreferences, modified, more], same, next⟩

end RtcBase.Networks
