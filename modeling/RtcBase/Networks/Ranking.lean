import RtcBase.Networks.Comparators
import RtcBase.Networks.Records

/-! Whether the listed networks stay in the order of `sort_networks`, with preferences that never
increase. The order is made only when a change is reported, and only the first networks get a
preference; the two conditions under which this is enough are exact.
-/

namespace RtcBase.Networks

open Library

/-- Any two listed networks are related, the earlier one first. -/
def ListedPairwise (manager : NetworkManagerBase) (related : Network → Network → Prop) : Prop :=
  manager.networks.Pairwise fun o o' =>
    ∀ a b,
      manager.heap.objects o = some a → manager.heap.objects o' = some b → related a b

/-- The listed networks are live, in the order of `sort_networks` as they are now, and their
preferences never increase.
-/
structure Ranked (manager : NetworkManagerBase) : Prop where
  live : ∀ o ∈ manager.networks, ∃ network, manager.heap.objects o = some network
  sorted : ListedPairwise manager fun a b => b.sortNetworks a = false
  decreasing : ListedPairwise manager fun a b => b.preference ≤ a.preference

/-- The network that stands for a key after the two loops of a call with it. -/
def standingFor (env : Environment) (manager : NetworkManagerBase) (items : List (Nat × Network))
    (key : Text)
    : Option Network :=
  (offered env items key).map (merge 0 (recorded manager key))

/-- The number of keys of a call whose networks sort before a network. -/
def overtaking (env : Environment) (manager : NetworkManagerBase) (items : List (Nat × Network))
    (network : Network)
    : Nat :=
  (items.map fun item => item.2.mapKey env).dedup.countP fun key =>
    (standingFor env manager items key).any fun other => other.sortNetworks network

/-- The addresses of a call exchange no two networks that are recorded in order. -/
def NeverExchanges (env : Environment) (manager : NetworkManagerBase)
    (items : List (Nat × Network))
    : Prop :=
  ∀ {key key' : Text} {a b offer offer' : Network},
    recorded manager key = some a
    → offered env items key = some offer
    → recorded manager key' = some b
    → offered env items key' = some offer'
    → a.sortNetworks b = true
    → (refresh b offer').sortNetworks (refresh a offer) = false

/-- No network that has a preference is overtaken by as many networks as there are preferences. -/
def NeverOvertakes (env : Environment) (manager : NetworkManagerBase)
    (items : List (Nat × Network))
    : Prop :=
  ∀ {key : Text} {network merged : Network},
    recorded manager key = some network
    → network.preference ≠ 0
    → standingFor env manager items key = some merged
    → overtaking env manager items merged ≤ highestNetworkPreference

/-- A call that is quiet exchanges nothing, and one that is not overtakes nothing. -/
structure KeepsRanks (env : Environment) (manager : NetworkManagerBase)
    (items : List (Nat × Network))
    : Prop where
  quiet : Quiet env manager items → NeverExchanges env manager items
  noticed : ¬ Quiet env manager items → NeverOvertakes env manager items

-----------------------------------------------------------------------------------------
-- Assigning preferences
-----------------------------------------------------------------------------------------

/-- The preference of the network at a place of the sorted list. -/
def preferenceAt (pref place : Nat) (network : Network) : Network :=
  if place ≤ pref then { network with preference := ((pref - place : Nat) : Int) } else network

/-- The place after the first is the same place of the rest, with the next preference first. -/
theorem preferenceAt_succ {pref : Nat} (more : pref > 0) (place : Nat)
    : preferenceAt pref (place + 1) = preferenceAt (pref - 1) place := by
  funext network
  have reached : place + 1 ≤ pref ↔ place ≤ pref - 1 := by omega
  have same : pref - (place + 1) = pref - 1 - place := by omega
  simp only [preferenceAt, reached, same]

/-- No place after the one with preference zero gets a preference. -/
theorem preferenceAt_of_lt {pref place : Nat} (past : pref < place)
    : preferenceAt pref place = id := by
  funext network
  exact if_neg (by omega)

/-- Preferences are assigned by place until they reach zero, by induction on the networks. -/
theorem assignPreferences_at {heap final : Heap Network} {list : List Nat} (distinct : list.Nodup)
    {pref : Nat} (assigns : assignPreferences heap pref list = some final)
    : (∀ {i o : Nat},
        list[i]? = some o → final.objects o = (heap.objects o).map (preferenceAt pref i))
      ∧ ∀ o, o ∉ list → final.objects o = heap.objects o := by
  induction list generalizing heap pref with
  | nil =>
      obtain rfl : heap = final := Option.some.inj assigns
      simp
  | cons o rest ih =>
      obtain ⟨fresh, later⟩ := List.nodup_cons.mp distinct
      simp only [assignPreferences, Option.bind_eq_bind, Option.bind_eq_some_iff] at assigns
      obtain ⟨ranked, modified, continues⟩ := assigns
      have objects := Heap.objects_of_modify modified
      have first
          : ranked.objects o = (heap.objects o).map (preferenceAt pref 0) := by
        rw [objects, Function.update_self]
        rfl
      have others {other : Nat} (differs : other ≠ o)
          : ranked.objects other = heap.objects other := by
        rw [objects, Function.update_of_ne differs]
      have apart {i other : Nat} (member : rest[i]? = some other) : other ≠ o := by
        rintro rfl
        exact fresh (List.mem_of_getElem? member)
      by_cases more : pref > 0
      · rw [if_pos more] at continues
        obtain ⟨placed, kept⟩ := ih later continues
        refine ⟨?_, ?_⟩
        · intro i other member
          cases i with
          | zero =>
              obtain rfl : o = other := by simpa using member
              rw [kept o fresh, first]
          | succ i =>
              rw [List.getElem?_cons_succ] at member
              rw [placed member, others (apart member), preferenceAt_succ more]
        · intro other outside
          rw [List.mem_cons, not_or] at outside
          rw [kept other outside.2, others outside.1]
      · rw [if_neg more] at continues
        obtain rfl : ranked = final := Option.some.inj continues
        refine ⟨?_, ?_⟩
        · intro i other member
          cases i with
          | zero =>
              obtain rfl : o = other := by simpa using member
              exact first
          | succ i =>
              rw [List.getElem?_cons_succ] at member
              have past : pref < i + 1 := by omega
              rw [others (apart member), preferenceAt_of_lt past, Option.map_id, id]
        · intro other outside
          rw [List.mem_cons, not_or] at outside
          exact others outside.1

section Ranks

variable {env : Environment} {manager : NetworkManagerBase} {heap : Heap Network}
  {items : List (Nat × Network)} {stats : Stats} {first : Consolidation} {merging : Merging}
  {result : MergeResult}

-----------------------------------------------------------------------------------------
-- Calls that report no change
-----------------------------------------------------------------------------------------

/-- `sort_networks` tells any two networks of the manager apart. -/
theorem Registered.comparable (h : Registered env manager) (keyed : Keyed manager) {o o' : Nat}
    {a b : Network} (liveA : manager.heap.objects o = some a)
    (liveB : manager.heap.objects o' = some b) (differ : o ≠ o') (notLess : b.sortNetworks a = false)
    : a.sortNetworks b = true := by
  by_contra notGreater
  rw [Bool.not_eq_true] at notGreater
  have sameKey : a.key = b.key := key_eq_of_incomparable ⟨notGreater, notLess⟩
  rw [keyed _ a (h.recorded_eq liveA), keyed _ b (h.recorded_eq liveB)] at sameKey
  have filed := h.adopted liveA
  rw [sameKey, h.adopted liveB] at filed
  exact differ (Option.some.inj filed).symm

/-- In a quiet call every listed network gets an offer and is refreshed by it. -/
theorem MergeRun.refreshed (run : MergeRun env manager heap items stats first merging result)
    (h : Registered env manager) (handed : HandedOver manager heap items)
    (quiet : Quiet env manager items) {o : Nat} (listed : o ∈ manager.networks) {network : Network}
    (live : manager.heap.objects o = some network)
    : ∃ offer,
        offered env items (network.mapKey env) = some offer
        ∧ merging.heap.objects o = some (refresh network offer) := by
  obtain ⟨offer, found⟩ :=
    quiet.all_offered (h.recorded_eq live) ((h.active_iff live).mpr listed)
  obtain ⟨id, merged⟩ := (run.table h handed).merged found
  have filed := (run.stage h handed).kept (h.adopted live)
  refine ⟨offer, found, ?_⟩
  rw [h.recorded_eq live] at merged
  change merging.networksMap[network.mapKey env]?.bind merging.heap.objects = _ at merged
  rw [filed] at merged
  exact merged

/-- A record with an offer in a quiet call is listed. -/
theorem Quiet.listed (quiet : Quiet env manager items) (h : Registered env manager) {key : Text}
    {network offer : Network} (record : recorded manager key = some network)
    (found : offered env items key = some offer)
    : ∃ o ∈ manager.networks, manager.heap.objects o = some network := by
  have unnoticed := quiet.unnoticed found
  rw [record] at unnoticed
  simp only [notices, Bool.or_eq_false_iff, Bool.not_eq_false'] at unnoticed
  rw [recorded, Option.bind_eq_some_iff] at record
  obtain ⟨o, -, live⟩ := record
  exact ⟨o, (h.active_iff live).mp unnoticed.2, live⟩

/-- After a call that reports no change the networks are ranked still, if it exchanges none. -/
theorem MergeRun.ranked_of_neverExchanges
    (run : MergeRun env manager heap items stats first merging result)
    (h : Registered env manager) (handed : HandedOver manager heap items) (keyed : Keyed manager)
    (ranked : Ranked manager) (unchanged : result.changed = false)
    (kept : NeverExchanges env manager items)
    : Ranked result.manager := by
  have quiet := (run.changed_eq_false h handed).mp unchanged
  rw [run.manager_of_unchanged unchanged]
  refine ⟨?_, ?_, ?_⟩
  · intro o listed
    obtain ⟨network, live⟩ := h.listed o listed
    obtain ⟨offer, -, after⟩ := run.refreshed h handed quiet listed live
    exact ⟨_, after⟩
  · apply List.Pairwise.imp_of_mem _ (ranked.sorted.and h.distinct)
    intro o o' listed listed' ⟨inOrder, differ⟩ a' b' liveA' liveB'
    obtain ⟨a, liveA⟩ := h.listed o listed
    obtain ⟨b, liveB⟩ := h.listed o' listed'
    obtain ⟨offer, found, after⟩ := run.refreshed h handed quiet listed liveA
    obtain ⟨offer', found', after'⟩ := run.refreshed h handed quiet listed' liveB
    cases after.symm.trans liveA'
    cases after'.symm.trans liveB'
    apply kept (h.recorded_eq liveA) found (h.recorded_eq liveB) found'
    exact h.comparable keyed liveA liveB differ (inOrder a b liveA liveB)
  · apply List.Pairwise.imp_of_mem _ ranked.decreasing
    intro o o' listed listed' inOrder a' b' liveA' liveB'
    obtain ⟨a, liveA⟩ := h.listed o listed
    obtain ⟨b, liveB⟩ := h.listed o' listed'
    obtain ⟨offer, -, after⟩ := run.refreshed h handed quiet listed liveA
    obtain ⟨offer', -, after'⟩ := run.refreshed h handed quiet listed' liveB
    cases after.symm.trans liveA'
    cases after'.symm.trans liveB'
    exact inOrder a b liveA liveB

/-- A call that reports no change and leaves the networks ranked exchanged none. -/
theorem MergeRun.neverExchanges_of_ranked
    (run : MergeRun env manager heap items stats first merging result)
    (h : Registered env manager) (handed : HandedOver manager heap items)
    (ranked : Ranked manager) (unchanged : result.changed = false)
    (rankedAfter : Ranked result.manager)
    : NeverExchanges env manager items := by
  have quiet := (run.changed_eq_false h handed).mp unchanged
  rw [run.manager_of_unchanged unchanged] at rankedAfter
  intro key key' a b offer offer' record found record' found' less
  obtain ⟨o, listed, liveA⟩ := quiet.listed h record found
  obtain ⟨o', listed', liveB⟩ := quiet.listed h record' found'
  obtain ⟨sameOffer, sameFound, after⟩ := run.refreshed h handed quiet listed liveA
  obtain ⟨sameOffer', sameFound', after'⟩ := run.refreshed h handed quiet listed' liveB
  rw [h.recorded_key record, found] at sameFound
  rw [h.recorded_key record', found'] at sameFound'
  cases sameFound
  cases sameFound'
  have differ : o ≠ o' := by
    rintro rfl
    cases liveA.symm.trans liveB
    rw [(sortNetworks_strictWeak a a a).irreflexive] at less
    cases less
  -- the list is the same before and after, so one of the two networks comes first in both
  rcases related_or_related (ranked.sorted.and rankedAfter.sorted) listed listed' differ
    with inOrder | reversed
  · exact inOrder.2 _ _ after after'
  · rw [reversed.1 b a liveB liveA] at less
    cases less

-----------------------------------------------------------------------------------------
-- Calls that report a change
-----------------------------------------------------------------------------------------

/-- A network has the place and the preference of another. -/
def SameRank (a b : Network) : Prop := a.rank = b.rank ∧ a.preference = b.preference

/-- `sort_networks` looks at places only. -/
theorem sortNetworks_congr {a a' b b' : Network} (first : a.rank = a'.rank)
    (second : b.rank = b'.rank)
    : a.sortNetworks b = a'.sortNetworks b' := by
  rw [Bool.eq_iff_iff, sortNetworks_iff_rank, sortNetworks_iff_rank, first, second]

/-- The identifier of a merged network does not count, by cases on the record. -/
theorem merge_sameRank (id : BitVec 16) (record : Option Network) (offer : Network)
    : SameRank (merge id record offer) (merge 0 record offer) := by
  cases record with
  | none => exact ⟨rfl, rfl⟩
  | some network => exact ⟨rfl, rfl⟩

/-- The networks after a call that reports a change, as they were sorted: increasing, one for each
key of the call, and then given a preference by place.
-/
structure Placed (env : Environment) (manager : NetworkManagerBase) (items : List (Nat × Network))
    (after : NetworkManagerBase) (sorted : List (Nat × Network))
    : Prop where
  networks : after.networks = sorted.map Prod.fst
  increasing : sorted.Pairwise fun a b => a.2.sortNetworks b.2 = true
  objects
    : ∀ {i : Nat} {item : Nat × Network},
        sorted[i]? = some item
        → after.heap.objects item.1 = some (preferenceAt highestNetworkPreference i item.2)
  standing
    : ∀ item ∈ sorted,
        ∃ merged,
          standingFor env manager items item.2.key = some merged ∧ SameRank item.2 merged
  complete
    : ∀ {key : Text} {merged : Network},
        standingFor env manager items key = some merged → ∃ item ∈ sorted, item.2.key = key

/-- A merged network has the rank of what the call makes of its key. -/
theorem TableEffect.standing (table : TableEffect env manager items merging)
    (stage : Stage env manager items merging) (keyed : Keyed (staged manager merging))
    {reset : Heap Network} (resorted : Resorted env merging reset result.manager) {o : Nat}
    {network : Network} (live : reset.objects o = some network) (isMerged : o ∈ merging.mergedList)
    : ∃ merged,
        standingFor env manager items network.key = some merged ∧ SameRank network merged := by
  obtain ⟨filed, before, record, same⟩ := stage.reset_filed keyed resorted.reset live
  obtain ⟨offer, found⟩ := (stage.merged_offered filed).mp isMerged
  obtain ⟨id, merged⟩ := table.merged found
  refine ⟨_, by rw [standingFor, found, Option.map_some], ?_⟩
  have asBefore : SameRank network before := by
    rw [same]
    exact ⟨rfl, rfl⟩
  rw [record] at merged
  have asMerged := merge_sameRank id (recorded manager network.key) offer
  rw [← Option.some.inj merged] at asMerged
  exact ⟨asBefore.1.trans asMerged.1, asBefore.2.trans asMerged.2⟩

/-- What the call makes of a key is one of the merged networks, which carries the key. -/
theorem TableEffect.complete (table : TableEffect env manager items merging)
    (stage : Stage env manager items merging) (keyed : Keyed (staged manager merging))
    {reset : Heap Network} (resorted : Resorted env merging reset result.manager) {key : Text}
    {merged : Network} (standing : standingFor env manager items key = some merged)
    : ∃ o ∈ merging.mergedList, ∀ network, reset.objects o = some network → network.key = key := by
  rw [standingFor, Option.map_eq_some_iff] at standing
  obtain ⟨offer, found, -⟩ := standing
  obtain ⟨id, record⟩ := table.merged found
  have carried := keyed key _ record
  rw [recorded, Option.bind_eq_some_iff] at record
  obtain ⟨o, filed, inLoops⟩ := record
  refine ⟨o, (stage.merged_offered filed).mpr ⟨offer, found⟩, ?_⟩
  intro network live
  rw [resorted.reset, Option.map_eq_some_iff] at live
  obtain ⟨before, sameObject, same⟩ := live
  cases sameObject.symm.trans inLoops
  rw [← same]
  exact carried

/-- A call that reports a change places its networks. -/
theorem MergeRun.placed (run : MergeRun env manager heap items stats first merging result)
    (sorts : env.Sorts) (h : Registered env manager) (handed : HandedOver manager heap items)
    (keyed : Keyed manager) (labelled : ∀ item ∈ items, item.2.key = item.2.mapKey env)
    (changed : result.changed = true)
    : ∃ sorted, Placed env manager items result.manager sorted := by
  have stage := run.stage h handed
  have table := run.table h handed
  have stagedKeyed := table.keyed keyed labelled
  obtain ⟨reset, resorted⟩ := run.resorted h handed changed
  obtain ⟨listed, references, live, networks⟩ := resorted.listed stage
  have permuted := env.sort_perm (fun a b : Nat × Network => a.2.sortNetworks b.2) listed
  have liveSorted : Live reset (env.sort (fun a b => a.2.sortNetworks b.2) listed) :=
    fun item member => live item (permuted.mem_iff.mp member)
  have distinct
      : ((env.sort (fun a b : Nat × Network => a.2.sortNetworks b.2) listed).map
          Prod.fst).Nodup := by
    rw [(permuted.map Prod.fst).nodup_iff, references]
    exact stage.distinct
  have weak : StrictWeak fun a b : Nat × Network => a.2.sortNetworks b.2 :=
    sortNetworks_strictWeak.comap Prod.snd
  refine ⟨env.sort (fun a b => a.2.sortNetworks b.2) listed, networks, ?_, ?_, ?_, ?_⟩
  · apply (sorts weak listed).increasing distinct.of_map
    intro a memberA b memberB alike
    exact stage.reset_distinct stagedKeyed resorted.reset liveSorted a memberA b memberB
      (key_eq_of_incomparable alike)
  · intro i item isItem
    have assigned := (assignPreferences_at (networks ▸ distinct) resorted.assigns).1
      (i := i) (o := item.1) (by rw [networks, List.getElem?_map, isItem, Option.map_some])
    rw [assigned, liveSorted item (List.mem_of_getElem? isItem), Option.map_some]
  · intro item member
    have isMerged : item.1 ∈ merging.mergedList := by
      rw [← references]
      exact (permuted.map Prod.fst).mem_iff.mp (List.mem_map_of_mem member)
    exact table.standing stage stagedKeyed resorted (liveSorted item member) isMerged
  · intro key merged standing
    obtain ⟨o, isMerged, carries⟩ := table.complete stage stagedKeyed resorted standing
    rw [← references, ← (permuted.map Prod.fst).mem_iff] at isMerged
    obtain ⟨item, member, rfl⟩ := List.mem_map.mp isMerged
    exact ⟨item, member, carries item.2 (liveSorted item member)⟩

section Placed

variable {after : NetworkManagerBase} {sorted : List (Nat × Network)}

/-- The sorted networks carry the keys of the call, each once. -/
theorem Placed.keys (placed : Placed env manager items after sorted)
    : (sorted.map fun item => item.2.key).Perm (items.map fun item => item.2.mapKey env).dedup := by
  have distinct : (sorted.map fun item => item.2.key).Nodup := by
    apply List.pairwise_map.mpr
    apply List.Pairwise.imp_of_mem _ placed.increasing
    intro a b memberA memberB less sameKey
    obtain ⟨merged, standing, ranks⟩ := placed.standing a memberA
    obtain ⟨merged', standing', ranks'⟩ := placed.standing b memberB
    rw [sameKey, standing'] at standing
    cases standing
    rw [sortNetworks_congr (ranks.1.trans ranks'.1.symm) rfl,
      (sortNetworks_strictWeak b.2 b.2 b.2).irreflexive] at less
    cases less
  rw [List.perm_ext_iff_of_nodup distinct (List.nodup_dedup _)]
  intro key
  have offers : key ∈ (items.map fun item => item.2.mapKey env).dedup
      ↔ ∃ merged, standingFor env manager items key = some merged := by
    rw [List.mem_dedup, List.mem_map]
    simp only [standingFor, Option.map_eq_some_iff]
    rw [← offered_isSome]
    constructor
    · intro ⟨offer, found⟩
      exact ⟨_, offer, found, rfl⟩
    · intro ⟨_, offer, found, _⟩
      exact ⟨offer, found⟩
  rw [offers, List.mem_map]
  constructor
  · intro ⟨item, member, isKey⟩
    obtain ⟨merged, standing, -⟩ := placed.standing item member
    exact ⟨merged, by rw [← isKey, standing]⟩
  · intro ⟨merged, standing⟩
    obtain ⟨item, member, isKey⟩ := placed.complete standing
    exact ⟨item, member, isKey⟩

/-- The place of a network is the number of networks that overtake it. -/
theorem Placed.overtaking_eq (placed : Placed env manager items after sorted) {i : Nat}
    {item : Nat × Network} (isItem : sorted[i]? = some item) {network : Network}
    (ranks : item.2.rank = network.rank)
    : overtaking env manager items network = i := by
  have weak : StrictWeak fun a b : Nat × Network => a.2.sortNetworks b.2 :=
    sortNetworks_strictWeak.comap Prod.snd
  rw [overtaking, ← placed.keys.countP_eq, List.countP_map,
    ← weak.countP_less placed.increasing isItem]
  apply List.countP_congr
  intro other member
  obtain ⟨merged, standing, otherRanks⟩ := placed.standing other member
  simp only [Function.comp_apply, standing, Option.any_some]
  rw [sortNetworks_congr otherRanks.1.symm ranks.symm]

/-- The placed networks are live. -/
theorem Placed.live (placed : Placed env manager items after sorted)
    : ∀ o ∈ after.networks, ∃ network, after.heap.objects o = some network := by
  intro o member
  rw [placed.networks] at member
  obtain ⟨item, isItem, rfl⟩ := List.mem_map.mp member
  obtain ⟨i, found⟩ := List.mem_iff_getElem?.mp isItem
  exact ⟨_, placed.objects found⟩

/-- Listed networks are related when the placed ones are, with their preferences. -/
theorem Placed.listedPairwise_iff (placed : Placed env manager items after sorted)
    {related : Network → Network → Prop}
    : ListedPairwise after related
      ↔ ∀ {i j : Nat} {a b : Nat × Network},
          i < j
          → sorted[i]? = some a
          → sorted[j]? = some b
          → related (preferenceAt highestNetworkPreference i a.2)
              (preferenceAt highestNetworkPreference j b.2) := by
  rw [ListedPairwise, placed.networks, List.pairwise_map, List.pairwise_iff_getElem]
  constructor
  · intro holds i j a b less isA isB
    obtain ⟨boundI, rfl⟩ := List.getElem?_eq_some_iff.mp isA
    obtain ⟨boundJ, rfl⟩ := List.getElem?_eq_some_iff.mp isB
    exact holds i j boundI boundJ less _ _ (placed.objects isA) (placed.objects isB)
  · intro holds i j boundI boundJ less a b liveA liveB
    have isA : sorted[i]? = some sorted[i] := List.getElem?_eq_getElem boundI
    have isB : sorted[j]? = some sorted[j] := List.getElem?_eq_getElem boundJ
    rw [placed.objects isA, Option.some.injEq] at liveA
    rw [placed.objects isB, Option.some.injEq] at liveB
    rw [← liveA, ← liveB]
    exact holds less isA isB

/-- The placed networks are in order. -/
theorem Placed.sorted_listed (placed : Placed env manager items after sorted)
    : ListedPairwise after fun a b => b.sortNetworks a = false := by
  rw [placed.listedPairwise_iff]
  intro i j a b less isA isB
  have unplaced (place : Nat) (network : Network)
      : (preferenceAt highestNetworkPreference place network).rank = network.rank := by
    rw [preferenceAt]
    split <;> rfl
  rw [sortNetworks_congr (unplaced j b.2) (unplaced i a.2)]
  apply (sortNetworks_strictWeak a.2 b.2 b.2).asymmetric
  obtain ⟨boundI, rfl⟩ := List.getElem?_eq_some_iff.mp isA
  obtain ⟨boundJ, rfl⟩ := List.getElem?_eq_some_iff.mp isB
  exact List.pairwise_iff_getElem.mp placed.increasing i j boundI boundJ less

/-- The preference of a network that stands for a key: that of its record, or none. -/
theorem standingFor_preference {key : Text} {merged : Network}
    (standing : standingFor env manager items key = some merged)
    (fresh : ∀ item ∈ items, item.2.preference = 0)
    : merged.preference = ((recorded manager key).map Network.preference).getD 0 := by
  rw [standingFor, Option.map_eq_some_iff] at standing
  obtain ⟨offer, found, rfl⟩ := standing
  cases recorded manager key with
  | some network => rfl
  | none =>
      rw [offered, Option.map_eq_some_iff] at found
      obtain ⟨item, head, rfl⟩ := found
      exact fresh item (List.mem_filter.mp (List.mem_of_head? head)).1

/-- A network beyond the last place with a preference has none, if none is overtaken. -/
theorem Placed.preference_eq_zero (placed : Placed env manager items after sorted)
    (fresh : ∀ item ∈ items, item.2.preference = 0) (kept : NeverOvertakes env manager items)
    {i : Nat} {item : Nat × Network} (isItem : sorted[i]? = some item)
    (beyond : highestNetworkPreference < i)
    : item.2.preference = 0 := by
  obtain ⟨merged, standing, ranks⟩ := placed.standing item (List.mem_of_getElem? isItem)
  rw [ranks.2, standingFor_preference standing fresh]
  cases record : recorded manager item.2.key with
  | none => rfl
  | some network =>
      by_contra nonzero
      have few := kept record nonzero standing
      rw [placed.overtaking_eq isItem ranks.1] at few
      omega

/-- Preferences never increase along the placed networks, if none is overtaken. -/
theorem Placed.decreasing (placed : Placed env manager items after sorted)
    (fresh : ∀ item ∈ items, item.2.preference = 0) (kept : NeverOvertakes env manager items)
    : ListedPairwise after fun a b => b.preference ≤ a.preference := by
  rw [placed.listedPairwise_iff]
  intro i j a b less isA isB
  by_cases placedJ : j ≤ highestNetworkPreference
  · have placedI : i ≤ highestNetworkPreference := by omega
    simp only [preferenceAt, placedI, placedJ, if_true]
    omega
  · have noneB := placed.preference_eq_zero fresh kept isB (by omega)
    by_cases placedI : i ≤ highestNetworkPreference
    · simp only [preferenceAt, placedI, placedJ, if_true, if_false, noneB]
      omega
    · have noneA := placed.preference_eq_zero fresh kept isA (by omega)
      simp only [preferenceAt, placedI, placedJ, if_false, noneA, noneB]
      omega

/-- Where preferences never increase along the placed networks, none was overtaken. -/
theorem Placed.neverOvertakes (placed : Placed env manager items after sorted)
    (nonnegative : ∀ key network, recorded manager key = some network → 0 ≤ network.preference)
    (fresh : ∀ item ∈ items, item.2.preference = 0)
    (decreasing : ListedPairwise after fun a b => b.preference ≤ a.preference)
    : NeverOvertakes env manager items := by
  intro key network merged record nonzero standing
  obtain ⟨item, member, rfl⟩ := placed.complete standing
  obtain ⟨i, isItem⟩ := List.mem_iff_getElem?.mp member
  obtain ⟨same, sameStanding, ranks⟩ := placed.standing item member
  cases standing.symm.trans sameStanding
  rw [placed.overtaking_eq isItem ranks.1]
  by_contra beyond
  -- the network keeps its preference, and the one at the last place gets zero
  have positive : 0 < item.2.preference := by
    have kept := standingFor_preference standing fresh
    rw [record, Option.map_some, Option.getD_some] at kept
    have := nonnegative _ network record
    rw [ranks.2, kept]
    omega
  have bound : highestNetworkPreference < sorted.length := by
    obtain ⟨bound, -⟩ := List.getElem?_eq_some_iff.mp isItem
    omega
  have last : sorted[highestNetworkPreference]? = some sorted[highestNetworkPreference] :=
    List.getElem?_eq_getElem bound
  have lower := placed.listedPairwise_iff.mp decreasing (by omega) last isItem
  simp only [preferenceAt, le_refl, if_true, if_neg beyond] at lower
  omega

end Placed

-----------------------------------------------------------------------------------------
-- One call
-----------------------------------------------------------------------------------------

/-- No record has a negative preference. -/
def Preferred (manager : NetworkManagerBase) : Prop :=
  ∀ key network, recorded manager key = some network → 0 ≤ network.preference

/-- The two loops leave no negative preference. -/
theorem TableEffect.preferred (table : TableEffect env manager items merging)
    (preferred : Preferred manager) (fresh : ∀ item ∈ items, item.2.preference = 0)
    : Preferred (staged manager merging) := by
  intro key network found
  cases offer : offered env items key with
  | none =>
      rw [table.kept offer] at found
      exact preferred key network found
  | some net =>
      obtain ⟨id, merged⟩ := table.merged offer
      cases found.symm.trans merged
      have standing : standingFor env manager items key = some (merge 0 (recorded manager key) net) := by
        rw [standingFor, offer, Option.map_some]
      rw [(merge_sameRank id _ net).2, standingFor_preference standing fresh]
      cases record : recorded manager key with
      | none => exact Int.le_refl 0
      | some existing => exact preferred key existing record

/-- A call leaves no negative preference, by cases on whether it reports a change. -/
theorem MergeRun.preferred (run : MergeRun env manager heap items stats first merging result)
    (h : Registered env manager) (handed : HandedOver manager heap items)
    (preferred : Preferred manager) (fresh : ∀ item ∈ items, item.2.preference = 0)
    : Preferred result.manager := by
  have stage := run.stage h handed
  have stagedPreferred := (run.table h handed).preferred preferred fresh
  cases changed : result.changed with
  | false => rwa [run.manager_of_unchanged changed]
  | true =>
      intro key network found
      obtain ⟨reset, resorted⟩ := run.resorted h handed changed
      obtain ⟨placed, others⟩ := assignPreferences_at
        ((run.finished stage).registered stage).distinct resorted.assigns
      rw [recorded, resorted.networksMap, Option.bind_eq_some_iff] at found
      obtain ⟨o, filed, live⟩ := found
      have unplaced {before : Network} (inReset : reset.objects o = some before)
          : 0 ≤ before.preference := by
        rw [resorted.reset, Option.map_eq_some_iff] at inReset
        obtain ⟨inLoops, found, rfl⟩ := inReset
        apply stagedPreferred key inLoops
        rw [recorded]
        change merging.networksMap[key]?.bind merging.heap.objects = _
        rw [filed]
        exact found
      by_cases listed : o ∈ result.manager.networks
      · obtain ⟨i, place⟩ := List.mem_iff_getElem?.mp listed
        rw [placed place, Option.map_eq_some_iff] at live
        obtain ⟨before, inReset, rfl⟩ := live
        rw [preferenceAt]
        split
        · exact Int.natCast_nonneg _
        · exact unplaced inReset
      · rw [others o listed] at live
        exact unplaced live

/-- A call on ranked networks leaves them ranked exactly when it keeps ranks. -/
theorem MergeRun.ranked_iff (run : MergeRun env manager heap items stats first merging result)
    (sorts : env.Sorts) (h : Registered env manager) (handed : HandedOver manager heap items)
    (keyed : Keyed manager) (labelled : ∀ item ∈ items, item.2.key = item.2.mapKey env)
    (preferred : Preferred manager) (fresh : ∀ item ∈ items, item.2.preference = 0)
    (ranked : Ranked manager)
    : Ranked result.manager ↔ KeepsRanks env manager items := by
  cases changed : result.changed with
  | false =>
      have quiet := (run.changed_eq_false h handed).mp changed
      constructor
      · intro rankedAfter
        exact ⟨fun _ => run.neverExchanges_of_ranked h handed ranked changed rankedAfter,
          fun noticed => absurd quiet noticed⟩
      · intro keeps
        exact run.ranked_of_neverExchanges h handed keyed ranked changed (keeps.quiet quiet)
  | true =>
      have noticed : ¬ Quiet env manager items := by
        rw [← run.changed_eq_false h handed, changed]
        simp
      obtain ⟨sorted, placed⟩ := run.placed sorts h handed keyed labelled changed
      constructor
      · intro rankedAfter
        exact ⟨fun quiet => absurd quiet noticed,
          fun _ => placed.neverOvertakes preferred fresh rankedAfter.decreasing⟩
      · intro keeps
        exact ⟨placed.live, placed.sorted_listed, placed.decreasing fresh (keeps.noticed noticed)⟩

end Ranks

-----------------------------------------------------------------------------------------
-- Sequences of calls
-----------------------------------------------------------------------------------------

/-- Networks are created without a preference. -/
theorem created_preference (env : Environment) (manager : NetworkManagerBase)
    (call : List NewNetwork)
    : ∀ item ∈ created env manager call, item.2.preference = 0 := by
  intro item isItem
  obtain ⟨new, -, same⟩ := exists_new_of_created isItem
  rw [← same]
  rfl

/-- What holds of a manager after any calls. -/
structure Prepared (env : Environment) (manager : NetworkManagerBase) : Prop where
  registered : Registered env manager
  keyed : Keyed manager
  preferred : Preferred manager

/-- A call keeps the manager prepared, and its networks ranked exactly when it keeps ranks. -/
theorem update_ranked {env : Environment} (sorts : env.Sorts) {manager : NetworkManagerBase}
    (h : Prepared env manager) (call : List NewNetwork)
    : ∃ result,
        update env manager call = some result
        ∧ Prepared env result.manager
        ∧ (Ranked manager
          → (Ranked result.manager
            ↔ KeepsRanks env manager (arranged env (created env manager call)))) := by
  obtain ⟨first, merging, result, runs, handed, run⟩ := update_run h.registered call
  have stage := run.stage h.registered handed
  have permuted := arranged_perm env (created env manager call)
  have labelled (item : Nat × Network) (isItem : item ∈ arranged env (created env manager call)) :=
    created_labelled env manager call item (permuted.mem_iff.mp isItem)
  have fresh (item : Nat × Network) (isItem : item ∈ arranged env (created env manager call)) :=
    created_preference env manager call item (permuted.mem_iff.mp isItem)
  exact ⟨result, runs,
    ⟨(run.finished stage).registered stage, run.keyed h.registered handed h.keyed labelled,
      run.preferred h.registered handed h.preferred fresh⟩,
    run.ranked_iff sorts h.registered handed h.keyed labelled h.preferred fresh⟩

/-- One more call of a sequence. -/
theorem updates_append {env : Environment} {done : List (List NewNetwork)}
    {manager : NetworkManagerBase} (runs : updates env done = some manager) {call : List NewNetwork}
    {result : MergeResult} (merges : update env manager call = some result)
    : updates env (done ++ [call]) = some result.manager := by
  rw [updates] at runs
  rw [updates, List.foldlM_append, runs]
  simp [merges]

/-- Any sequence of calls leads to a prepared manager, by induction on the calls from the end. -/
theorem updates_prepared {env : Environment} (sorts : env.Sorts) (calls : List (List NewNetwork))
    : ∃ manager, updates env calls = some manager ∧ Prepared env manager := by
  induction calls using List.reverseRecOn with
  | nil =>
      refine ⟨.construct, rfl, Registered.construct env, ?_, ?_⟩
      · intro key network found
        simp [recorded, NetworkManagerBase.construct] at found
      · intro key network found
        simp [recorded, NetworkManagerBase.construct] at found
  | append_singleton done call ih =>
      obtain ⟨manager, runs, prepared⟩ := ih
      obtain ⟨result, merges, next, -⟩ := update_ranked sorts prepared call
      exact ⟨result.manager, updates_append runs merges, next⟩

/-- The networks are ranked after every call of a sequence exactly when every call keeps ranks in
the state before it; the state is ranked at the start, and each step goes one way or the other.
-/
theorem ranked_after_each_call_iff {env : Environment} (sorts : env.Sorts)
    (calls : List (List NewNetwork))
    : (∀ reached, reached <+: calls
        → ∃ manager, updates env reached = some manager ∧ Ranked manager)
      ↔ ∀ done call, done ++ [call] <+: calls
          → ∃ manager,
              updates env done = some manager
              ∧ KeepsRanks env manager (arranged env (created env manager call)) := by
  constructor
  · intro always done call isPrefix
    obtain ⟨manager, runs, ranked⟩ := always done ((List.prefix_append done [call]).trans isPrefix)
    obtain ⟨same, sameRuns, prepared⟩ := updates_prepared sorts done
    cases runs.symm.trans sameRuns
    obtain ⟨result, merges, -, rankedIff⟩ := update_ranked sorts prepared call
    obtain ⟨after, runsAfter, rankedAfter⟩ := always (done ++ [call]) isPrefix
    cases (updates_append runs merges).symm.trans runsAfter
    exact ⟨manager, runs, (rankedIff ranked).mp rankedAfter⟩
  · intro keeps reached isPrefix
    induction reached using List.reverseRecOn with
    | nil =>
        refine ⟨.construct, rfl, ?_, List.Pairwise.nil, List.Pairwise.nil⟩
        intro o listed
        cases listed
    | append_singleton done call ih =>
        obtain ⟨manager, runs, ranked⟩ := ih ((List.prefix_append done [call]).trans isPrefix)
        obtain ⟨same, sameRuns, prepared⟩ := updates_prepared sorts done
        cases runs.symm.trans sameRuns
        obtain ⟨result, merges, -, rankedIff⟩ := update_ranked sorts prepared call
        obtain ⟨kept, runsKept, keepsRanks⟩ := keeps done call isPrefix
        cases runs.symm.trans runsKept
        exact ⟨result.manager, updates_append runs merges, (rankedIff ranked).mpr keepsRanks⟩

/-- The system with IPv4, which also writes the prefix `2001::`. -/
def dualSystem : Environment :=
  { ip4System with
    inetNtop
      | .inet6, bytes =>
          if bytes = [0x20, 0x01] ++ List.replicate 14 0 then some ['2', '0', '0', '1', ':', ':']
          else none
      | family, bytes => ip4System.inetNtop family bytes }

/-- The interface `eth0` with the address `10.0.0.1/8`. -/
def eth0IPv4 : NewNetwork := interface ['e', 't', 'h', '0']

/-- The Teredo address `2001::1`. -/
def teredo : InterfaceAddress :=
  ⟨.ip6 (.ofFn fun k => if k = 0 then 0x20 else if k = 1 ∨ k = 15 then 0x01 else 0), 0⟩

/-- The global address `2001:db8::1`. -/
def global : InterfaceAddress :=
  ⟨.ip6 #v[0x20, 0x01, 0x0d, 0xb8, 0, 0, 0, 0, 0, 0, 0, 0, 0, 0, 0, 1], 0⟩

/-- The interface `eth0` with two addresses in `2001::/16`. -/
def eth0IPv6 (first second : InterfaceAddress) : NewNetwork where
  name := ['e', 't', 'h', '0']
  description := []
  prefixIP := .ip6 #v[0x20, 0x01, 0, 0, 0, 0, 0, 0, 0, 0, 0, 0, 0, 0, 0, 0]
  prefixLength := 16
  type := .ethernet
  scopeId := 0
  ignored := false
  ips := [first, second]
  ips_ne_nil := by simp

theorem dualSystem_sorts : dualSystem.Sorts := fun weak items => weak.ordered_insertionSort items

/-- A call with no more networks than there are preferences overtakes nothing. -/
theorem neverOvertakes_of_few {env : Environment} {manager : NetworkManagerBase}
    {items : List (Nat × Network)} (few : items.length ≤ highestNetworkPreference)
    : NeverOvertakes env manager items := by
  intro key network merged _ _ _
  calc overtaking env manager items merged
      ≤ (items.map fun item => item.2.mapKey env).dedup.length := List.countP_le_length
    _ ≤ (items.map fun item => item.2.mapKey env).length := (List.dedup_sublist _).length_le
    _ ≤ highestNetworkPreference := by simpa using few

/-- A key for which something is offered is the key of a network of the call. -/
theorem mem_keys_of_offered {env : Environment} {items : List (Nat × Network)} {key : Text}
    {offer : Network} (offers : offered env items key = some offer)
    : key ∈ items.map fun item => item.2.mapKey env := by
  obtain ⟨first, found, -⟩ := Option.map_eq_some_iff.mp offers
  have member := List.mem_filter.mp (List.mem_of_head? found)
  exact List.mem_map.mpr ⟨first, member.1, by simpa using member.2⟩

/-- Whether two keys of a call keep their order, as `NeverExchanges` asks of them. -/
def keepsOrder (env : Environment) (manager : NetworkManagerBase) (items : List (Nat × Network))
    (key key' : Text)
    : Bool :=
  (recorded manager key).all fun a =>
    (offered env items key).all fun offer =>
      (recorded manager key').all fun b =>
        (offered env items key').all fun offer' =>
          !a.sortNetworks b || !(refresh b offer').sortNetworks (refresh a offer)

/-- Only the keys of the call have to be looked at. -/
theorem neverExchanges_of_keys {env : Environment} {manager : NetworkManagerBase}
    {items : List (Nat × Network)}
    (keeps
      : ((items.map fun item => item.2.mapKey env).all fun key =>
          (items.map fun item => item.2.mapKey env).all fun key' =>
            keepsOrder env manager items key key') = true)
    : NeverExchanges env manager items := by
  intro key key' a b offer offer' record offers record' offers' before
  have here := List.all_eq_true.mp (List.all_eq_true.mp keeps key (mem_keys_of_offered offers)) key'
    (mem_keys_of_offered offers')
  simpa [keepsOrder, record, offers, record', offers', before] using here

/-- Witness: an IPv6 network comes before an IPv4 network, and a second call with the same addresses
leaves them there.
-/
theorem ranked_after_each_call_iff_same_addresses
    : (∃ manager,
        updates dualSystem [[eth0IPv6 teredo global, eth0IPv4]] = some manager ∧ Ranked manager)
      ∧ ∃ manager,
          updates dualSystem [[eth0IPv6 teredo global, eth0IPv4], [eth0IPv6 teredo global, eth0IPv4]]
            = some manager
          ∧ Ranked manager := by
  have ranked :=
    (ranked_after_each_call_iff dualSystem_sorts
      [[eth0IPv6 teredo global, eth0IPv4], [eth0IPv6 teredo global, eth0IPv4]]).mpr
  suffices conditions : _ from
    ⟨ranked conditions [_] (by simp), ranked conditions _ List.prefix_rfl⟩
  intro done call isPrefix
  have checked
      : ((List.range 2).all fun calls =>
          (updates dualSystem (List.replicate calls [eth0IPv6 teredo global, eth0IPv4])).any
            fun manager =>
              let items :=
                arranged dualSystem (created dualSystem manager [eth0IPv6 teredo global, eth0IPv4])
              decide (items.length ≤ highestNetworkPreference)
              && (items.map fun item => item.2.mapKey dualSystem).all fun key =>
                  (items.map fun item => item.2.mapKey dualSystem).all fun key' =>
                    keepsOrder dualSystem manager items key key') = true := by
    decide +kernel
  obtain ⟨calls, fewer, rfl, rfl⟩
      : ∃ calls < 2,
          done = List.replicate calls [eth0IPv6 teredo global, eth0IPv4]
          ∧ call = [eth0IPv6 teredo global, eth0IPv4] := by
    rcases done with - | ⟨first, - | ⟨second, rest⟩⟩
    · exact ⟨0, by simp, rfl, (List.cons_prefix_cons.mp isPrefix).1⟩
    · obtain ⟨rfl, later⟩ := List.cons_prefix_cons.mp isPrefix
      exact ⟨1, by simp, rfl, (List.cons_prefix_cons.mp later).1⟩
    · have short := isPrefix.length_le
      simp at short
  have here := List.all_eq_true.mp checked calls (List.mem_range.mpr fewer)
  obtain ⟨manager, runs, keeps⟩ := (Option.any_eq_true _ _).mp here
  obtain ⟨few, ordered⟩ := Bool.and_eq_true_iff.mp keeps
  exact ⟨manager, runs, fun _ => neverExchanges_of_keys ordered,
    fun _ => neverOvertakes_of_few (of_decide_eq_true few)⟩

/-- When the two addresses of the IPv6 network come in the other order, its best address is the
Teredo one, which sorts after IPv4; no change is reported and the networks stay as they were.
-/
theorem ranked_fails_on_reordered_addresses
    : ∃ manager,
        updates dualSystem [[eth0IPv6 teredo global, eth0IPv4], [eth0IPv6 global teredo, eth0IPv4]]
          = some manager
        ∧ ¬ Ranked manager := by
  have evaluated
      : ((updates dualSystem
            [[eth0IPv6 teredo global, eth0IPv4], [eth0IPv6 global teredo, eth0IPv4]]).bind
          fun manager =>
            (manager.heap.objects 0).bind fun a =>
              (manager.heap.objects 1).map fun b => (manager.networks, b.sortNetworks a))
        = some ([0, 1], true) := by
    decide +kernel
  obtain ⟨manager, runs, later⟩ := Option.bind_eq_some_iff.mp evaluated
  obtain ⟨a, liveA, later⟩ := Option.bind_eq_some_iff.mp later
  obtain ⟨b, liveB, outcome⟩ := Option.map_eq_some_iff.mp later
  obtain ⟨networks, less⟩ := Prod.mk.inj outcome
  refine ⟨manager, runs, ?_⟩
  intro ranked
  have sorted := ranked.sorted
  rw [ListedPairwise, networks] at sorted
  have inOrder := (List.pairwise_cons.mp sorted).1 1 (by simp) a b liveA liveB
  rw [less] at inOrder
  cases inOrder

end RtcBase.Networks
