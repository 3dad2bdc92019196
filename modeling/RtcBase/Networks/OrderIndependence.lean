import RtcBase.Networks.Comparators
import RtcBase.Networks.Records

/-! Networks with distinct keys are merged alike in whatever order they are handed over, and
whatever the system's sort makes of `compare_networks`.
-/

namespace RtcBase.Networks

open Library

-----------------------------------------------------------------------------------------
-- Two systems that write addresses alike
-----------------------------------------------------------------------------------------

section Systems

variable {env other : Environment} (sameText : other.inetNtop = env.inetNtop)

include sameText

/-- Keys depend on the text of addresses only. -/
theorem mapKey_congr (network : Network) : network.mapKey other = network.mapKey env := by
  rw [Network.mapKey, Network.mapKey, makeNetworkKey, makeNetworkKey, sameText]

theorem consolidate_congr : consolidate other = consolidate env := by
  funext state o
  simp only [consolidate, mapKey_congr sameText]

theorem gathered_congr (items : List (Nat × Network)) (key : Text)
    : gathered other items key = gathered env items key := by
  simp only [gathered, filedUnder, mapKey_congr sameText]

/-- A manager that is registered on one system is on the other. -/
theorem Registered.congr {manager : NetworkManagerBase} (h : Registered env manager)
    : Registered other manager where
  filed found := by
    simp only [mapKey_congr sameText]
    exact h.filed found
  adopted live := by
    simp only [mapKey_congr sameText]
    exact h.adopted live
  distinct := h.distinct
  listed := h.listed
  active_iff := h.active_iff

end Systems

-----------------------------------------------------------------------------------------
-- The first loop on distinct keys
-----------------------------------------------------------------------------------------

/-- The family of a network's first address. -/
def firstFamily (network : Network) : AddressFamily := (network.ips.headD .unspec).ip.family

/-- The statistics after counting networks in any order. -/
def tally (stats : Stats) (items : List (Nat × Network)) : Stats where
  ipv4NetworkCount := stats.ipv4NetworkCount + items.countP fun item => firstFamily item.2 = .inet
  ipv6NetworkCount := stats.ipv6NetworkCount + items.countP fun item => firstFamily item.2 = .inet6

/-- Counting one more network, by cases on its family. -/
theorem tally_append (stats : Stats) (done : List (Nat × Network)) (item : Nat × Network)
    {address : InterfaceAddress} (isFirst : item.2.ips.head? = some address)
    : tally stats (done ++ [item]) = (tally stats done).count address := by
  have family : firstFamily item.2 = address.ip.family := by
    rw [firstFamily, List.headD_eq_head?_getD, isFirst, Option.getD_some]
  cases isFamily : address.ip.family with
  | unspec => simp [tally, Stats.count, family, isFamily]
  | inet =>
      simp [tally, Stats.count, family, isFamily]
      omega
  | inet6 =>
      simp [tally, Stats.count, family, isFamily]
      omega

/-- On distinct keys the first loop deletes nothing and counts every network. -/
theorem consolidate_distinct (env : Environment) {heap : Heap Network} (stats : Stats)
    {items : List (Nat × Network)} (live : Live heap items)
    (distinct : (items.map fun item => item.2.mapKey env).Nodup)
    (addressed : ∀ item ∈ items, item.2.ips ≠ [])
    : ∃ final,
        (items.map Prod.fst).foldlM (consolidate env) ⟨heap, ∅, stats⟩ = some final
        ∧ final.heap = heap
        ∧ final.stats = tally stats items := by
  let invariant (done : List (Nat × Network)) (state : Consolidation) : Prop :=
    state.heap = heap
    ∧ state.stats = tally stats done
    ∧ ∀ key, state.consolidated[key]? ≠ none → ∃ item ∈ done, item.2.mapKey env = key
  have start : invariant [] ⟨heap, ∅, stats⟩ := ⟨rfl, by simp [tally], by simp⟩
  have loop
      : ∃ final,
          items.foldlM (fun state item => consolidate env state item.1) ⟨heap, ∅, stats⟩
            = some final
          ∧ invariant items final := by
    apply foldlM_invariant start
    intro done item rest state split ⟨sameHeap, counted, keys⟩
    have here : item ∈ items := by simp [split]
    have new : state.consolidated[item.2.mapKey env]? = none := by
      by_contra present
      obtain ⟨earlier, isEarlier, sameKey⟩ := keys _ present
      rw [split, List.map_append, List.map_cons] at distinct
      exact List.disjoint_of_nodup_append distinct (List.mem_map_of_mem isEarlier) (by simp [sameKey])
    obtain ⟨address, others, ips⟩ := List.exists_cons_of_ne_nil (addressed item here)
    have found : state.heap.objects item.1 = some item.2 := by
      rw [sameHeap]
      exact live item here
    refine ⟨{ state with
      consolidated := state.consolidated.insert (item.2.mapKey env) ⟨item.1, item.2.ips⟩
      stats := state.stats.count address }, by simp [consolidate, found, new, ips], sameHeap, ?_, ?_⟩
    · rw [tally_append stats done item (by rw [ips]; rfl), counted]
    · intro key present
      by_cases isKey : item.2.mapKey env = key
      · exact ⟨item, by simp, isKey⟩
      · rw [Std.ExtTreeMap.getElem?_insert] at present
        simp only [Std.compare_eq_iff_eq, isKey, if_false] at present
        obtain ⟨earlier, isEarlier, sameKey⟩ := keys key present
        exact ⟨earlier, by simp [isEarlier], sameKey⟩
  obtain ⟨final, runs, sameHeap, counted, -⟩ := loop
  exact ⟨final, by rw [List.foldlM_map]; exact runs, sameHeap, counted⟩

/-- With distinct keys at most one network is filed under a key. -/
theorem filedUnder_length_le {env : Environment} {items : List (Nat × Network)}
    (distinct : (items.map fun item => item.2.mapKey env).Nodup) (key : Text)
    : (filedUnder env items key).length ≤ 1 := by
  have apart : (filedUnder env items key).Pairwise fun a b => a.2.mapKey env ≠ b.2.mapKey env :=
    (List.pairwise_map.mp distinct).filter _
  have keys (item : Nat × Network) (member : item ∈ filedUnder env items key)
      : item.2.mapKey env = key :=
    of_decide_eq_true (List.mem_filter.mp member).2
  cases filed : filedUnder env items key with
  | nil => simp
  | cons a rest =>
      cases rest with
      | nil => simp
      | cons b others =>
          rw [filed] at apart keys
          have differ := (List.pairwise_cons.mp apart).1 b (by simp)
          exact absurd ((keys a (by simp)).trans (keys b (by simp)).symm) differ

/-- With distinct keys the entries do not depend on the order. -/
theorem gathered_perm {env : Environment} {items sorted : List (Nat × Network)}
    (distinct : (items.map fun item => item.2.mapKey env).Nodup) (same : sorted.Perm items)
    (key : Text)
    : gathered env sorted key = gathered env items key := by
  have permuted : (filedUnder env sorted key).Perm (filedUnder env items key) := same.filter _
  have one := filedUnder_length_le distinct key
  have equal : filedUnder env sorted key = filedUnder env items key := by
    cases filed : filedUnder env items key with
    | nil =>
        rw [filed] at permuted
        exact permuted.eq_nil
    | cons first rest =>
        rw [filed] at permuted one
        obtain rfl : rest = [] := by simpa using one
        exact List.perm_singleton.mp permuted
  rw [gathered, gathered, equal]

/-- On distinct keys the first loop leaves the same for every order. -/
theorem consolidate_perm {env : Environment} {heap : Heap Network} {stats : Stats}
    {items sorted : List (Nat × Network)} (live : Live heap items)
    (distinct : (items.map fun item => item.2.mapKey env).Nodup)
    (addressed : ∀ item ∈ items, item.2.ips ≠ []) (same : sorted.Perm items)
    {first second : Consolidation}
    (firstRuns : (items.map Prod.fst).foldlM (consolidate env) ⟨heap, ∅, stats⟩ = some first)
    (firstEntries : ∀ key, first.consolidated[key]? = gathered env items key)
    (secondRuns : (sorted.map Prod.fst).foldlM (consolidate env) ⟨heap, ∅, stats⟩ = some second)
    (secondEntries : ∀ key, second.consolidated[key]? = gathered env sorted key)
    : first = second := by
  obtain ⟨left, leftRuns, leftHeap, leftStats⟩ :=
    consolidate_distinct env stats live distinct addressed
  obtain ⟨right, rightRuns, rightHeap, rightStats⟩ :=
    consolidate_distinct env stats (fun item member => live item (same.mem_iff.mp member))
      ((same.map _).nodup_iff.mpr distinct)
      (fun item member => addressed item (same.mem_iff.mp member))
  cases leftRuns.symm.trans firstRuns
  cases rightRuns.symm.trans secondRuns
  have entries : first.consolidated = second.consolidated := by
    apply Std.ExtTreeMap.ext_getElem?
    intro key
    rw [firstEntries, secondEntries, gathered_perm distinct same]
  have counts : first.stats = second.stats := by
    rw [leftStats, rightStats, tally, tally, same.countP_eq, same.countP_eq]
  have heaps : first.heap = second.heap := leftHeap.trans rightHeap.symm
  cases first
  cases second
  simp only [Consolidation.mk.injEq]
  exact ⟨heaps, entries, counts⟩

-----------------------------------------------------------------------------------------
-- The final sort
-----------------------------------------------------------------------------------------

/-- Any two systems sort networks with different keys alike. -/
theorem sortObjects_unique {env other : Environment} (sorts : env.Sorts) (otherSorts : other.Sorts)
    {heap : Heap Network} {items : List (Nat × Network)} (live : Live heap items)
    (distinct : ∀ a ∈ items, ∀ b ∈ items, a.2.key = b.2.key → a = b)
    : sortObjects other heap Network.sortNetworks (items.map Prod.fst)
      = sortObjects env heap Network.sortNetworks (items.map Prod.fst) := by
  have weak : StrictWeak fun a b : Nat × Network => a.2.sortNetworks b.2 :=
    sortNetworks_strictWeak.comap Prod.snd
  have same
      : other.sort (fun a b => a.2.sortNetworks b.2) items
        = env.sort (fun a b => a.2.sortNetworks b.2) items := by
    apply Ordered.unique (otherSorts weak items) (sorts weak items)
    · exact (other.sort_perm _ items).trans (env.sort_perm _ items).symm
    · intro a memberA b memberB alike
      apply distinct a ((other.sort_perm _ items).mem_iff.mp memberA) b
        ((other.sort_perm _ items).mem_iff.mp memberB)
      exact key_eq_of_incomparable alike
  rw [sortObjects_eq other _ live, sortObjects_eq env _ live, same]

/-- Any two systems end a merge alike. -/
theorem applyChanges_unique {env other : Environment} (sorts : env.Sorts)
    (otherSorts : other.Sorts) {manager : NetworkManagerBase} {items : List (Nat × Network)}
    {merging : Merging} (stage : Stage env manager items merging)
    (keyed : Keyed (staged manager merging)) (changed : Bool)
    : applyChanges other (staged manager merging) merging.mergedList changed
      = applyChanges env (staged manager merging) merging.mergedList changed := by
  cases changed with
  | false => rfl
  | true =>
      obtain ⟨heap, runs, reset, -⟩ := stage.reset
      obtain ⟨listed, references, isLive⟩ := exists_live (stage.merged_live reset)
      have unique := sortObjects_unique sorts otherSorts isLive
        (stage.reset_distinct keyed reset isLive)
      rw [references] at unique
      simp only [applyChanges, staged, if_true, runs, Option.bind_eq_bind, Option.bind_some, unique]

-----------------------------------------------------------------------------------------
-- A whole call
-----------------------------------------------------------------------------------------

/-- Two runs on one manager, with networks of distinct keys in any two orders, end alike. -/
theorem MergeRun.unique {env other : Environment} (sorts : env.Sorts) (otherSorts : other.Sorts)
    (sameText : other.inetNtop = env.inetNtop) {manager : NetworkManagerBase}
    (h : Registered env manager) (keyed : Keyed manager) {heap : Heap Network}
    {items sorted : List (Nat × Network)} (handed : HandedOver manager heap items)
    (labelled : ∀ item ∈ items, item.2.key = item.2.mapKey env)
    (distinct : (items.map fun item => item.2.mapKey env).Nodup) (same : sorted.Perm items)
    {stats : Stats} {first second : Consolidation} {merging otherMerging : Merging}
    {result otherResult : MergeResult}
    (run : MergeRun env manager heap items stats first merging result)
    (otherRun : MergeRun other manager heap sorted stats second otherMerging otherResult)
    : otherResult = result := by
  have secondRuns := otherRun.consolidates
  rw [consolidate_congr sameText] at secondRuns
  have sameFirst : first = second :=
    consolidate_perm handed.live distinct handed.addressed same run.consolidates run.loop.entries
      secondRuns (fun key => (otherRun.loop.entries key).trans (gathered_congr sameText sorted key))
  subst sameFirst
  have sameMerging : otherMerging = merging :=
    Option.some.inj (otherRun.merges.symm.trans run.merges)
  subst sameMerging
  have sameChanged : otherResult.changed = result.changed :=
    otherRun.changed.trans run.changed.symm
  have sameManager : otherResult.manager = result.manager := by
    have ends := otherRun.ends
    rw [applyChanges_unique sorts otherSorts (run.stage h handed)
      ((run.table h handed).keyed keyed labelled), sameChanged, run.ends] at ends
    exact (Option.some.inj ends).symm
  have sameStats : otherResult.stats = result.stats := otherRun.stats.trans run.stats.symm
  cases otherResult
  cases result
  simp only [MergeResult.mk.injEq]
  exact ⟨sameManager, sameChanged, sameStats⟩

/-- The manager with the networks of a call on its heap, before they are merged. -/
def handOver (env : Environment) (manager : NetworkManagerBase) (call : List NewNetwork)
    : NetworkManagerBase :=
  { manager with heap := (manager.heap.createAll (call.map (NewNetwork.network env))).2 }

/-- In every reachable state, merging networks with distinct keys leaves the same manager and
reports the same, in whatever order they are handed over and for any two systems that write
addresses alike and sort.
-/
theorem merge_order_independent {env other : Environment} (sorts : env.Sorts)
    (otherSorts : other.Sorts) (sameText : other.inetNtop = env.inetNtop)
    (earlier : List (List NewNetwork)) (latest : List NewNetwork)
    (distinct : (latest.map (NewNetwork.key env)).Nodup) (stats : Stats)
    : ∃ before result,
        updates env earlier = some before
        ∧ mergeNetworkList env (handOver env before latest)
            ((created env before latest).map Prod.fst) stats = some result
        ∧ ∀ order,
            order.Perm ((created env before latest).map Prod.fst)
            → mergeNetworkList other (handOver env before latest) order stats = some result := by
  obtain ⟨before, runs, registered, keyed⟩ := updates_keyed env earlier
  have handed := created_handedOver env before latest
  have labelled := created_labelled env before latest
  have keys : ((created env before latest).map fun item => item.2.mapKey env).Nodup := by
    have networks := congrArg (List.map (Network.mapKey env)) (created_snd env before latest)
    rw [List.map_map, List.map_map] at networks
    change List.map (Network.mapKey env ∘ Prod.snd) _ |>.Nodup
    rw [networks]
    exact distinct
  obtain ⟨first, merging, result, merges, run⟩ := mergeNetworkList_run registered handed stats
  refine ⟨before, result, runs, merges, ?_⟩
  intro order permuted
  have reordered
      : Relation.Comp (fun list items => list = List.map Prod.fst items) List.Perm order
          (created env before latest) := by
    rw [List.eq_map_comp_perm]
    exact permuted
  obtain ⟨items, rfl, samePairs⟩ := reordered
  obtain ⟨second, otherMerging, otherResult, otherMerges, otherRun⟩ :=
    mergeNetworkList_run (registered.congr sameText) (handed.perm samePairs) stats
  have arrangedPerm := arranged_perm env (created env before latest)
  have same : otherResult = result :=
    MergeRun.unique sorts otherSorts sameText registered keyed (handed.perm arrangedPerm)
      (fun item isItem => labelled item (arrangedPerm.mem_iff.mp isItem))
      ((arrangedPerm.map _).nodup_iff.mpr keys)
      (((arranged_perm other items).trans samePairs).trans arrangedPerm.symm) run otherRun
  rw [← same]
  exact otherMerges

/-- Witness: two interfaces, handed over in either order to a new manager. -/
theorem merge_order_independent_two_interfaces
    : ∃ result,
        mergeNetworkList ip4System
            (handOver ip4System .construct [interface ['e', 't', 'h', '0'], interface ['l', 'o']])
            [0, 1] {}
          = some result
        ∧ mergeNetworkList ip4System
            (handOver ip4System .construct [interface ['e', 't', 'h', '0'], interface ['l', 'o']])
            [1, 0] {}
          = some result := by
  obtain ⟨before, result, runs, merges, any⟩ :=
    merge_order_independent ip4System_sorts ip4System_sorts rfl []
      [interface ['e', 't', 'h', '0'], interface ['l', 'o']] (by decide) {}
  have isNew : before = .construct := (Option.some.inj runs).symm
  subst isNew
  exact ⟨result, merges, any [1, 0] (by decide)⟩

end RtcBase.Networks
