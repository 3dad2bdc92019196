import RtcBase.Networks.IfAddrs
import RtcBase.Networks.Registry

/-! An enumeration of the interfaces as a function of what the system reports: the networks that
`convert_if_addrs` makes, whatever objects exist already. The loop finds the network of an address by
its key and changes it through a pointer; what it has on the heap are the networks of the entries
that it has passed.
-/

namespace RtcBase.Networks

open Library

-----------------------------------------------------------------------------------------
-- Networks without a heap
-----------------------------------------------------------------------------------------

section Enumerate

variable (env : Environment) (host : ByteBuffer.Host) (manager : BasicNetworkManager)
  (converter : IfAddrsConverter) (includeIgnored : Bool)

/-- The networks found so far after one more entry: it is filtered out, joins the network of its
key, or makes a network of its own, which is not kept where it is ignored.
-/
def enumerateEntry (nets : List Network) (cursor : IfAddrs) : List Network :=
  match manager.accept converter cursor with
  | none => nets
  | some accepted =>
      let prefixLength := IPAddress.countIPMaskBits host accepted.mask
      let prefixIP := IPAddress.truncateIP host accepted.ip.ip prefixLength
      let key := makeNetworkKey env cursor.ifaName prefixIP prefixLength
      let network := newNetwork env manager cursor accepted prefixIP prefixLength
      if nets.any fun net => net.key = key then
        nets.map fun net =>
          if net.key = key then net.takeAddress accepted.ip cursor.adapterType else net
      else if includeIgnored || !network.ignored then nets ++ [network]
      else nets

/-- The networks of an enumeration. -/
def enumerate (interfaces : List IfAddrs) : List Network :=
  interfaces.foldl (enumerateEntry env host manager converter includeIgnored) []

/-- The network that an accepted entry makes if it is the first one of its key. -/
def networkOf (cursor : IfAddrs) (accepted : Accepted) : Network :=
  newNetwork env manager cursor accepted
    (IPAddress.truncateIP host accepted.ip.ip (IPAddress.countIPMaskBits host accepted.mask))
    (IPAddress.countIPMaskBits host accepted.mask)

/-- What one more entry can do to the networks. -/
theorem enumerateEntry_cases (nets : List Network) (cursor : IfAddrs)
    : (manager.accept converter cursor = none
        ∧ enumerateEntry env host manager converter includeIgnored nets cursor = nets)
      ∨ ∃ accepted network,
          manager.accept converter cursor = some accepted
          ∧ networkOf env host manager cursor accepted = network
          ∧ ((network.key ∈ nets.map Network.key
              ∧ enumerateEntry env host manager converter includeIgnored nets cursor
                = nets.map fun net =>
                    if net.key = network.key then net.takeAddress accepted.ip cursor.adapterType
                    else net)
            ∨ (network.key ∉ nets.map Network.key
              ∧ (includeIgnored || !network.ignored) = true
              ∧ enumerateEntry env host manager converter includeIgnored nets cursor
                = nets ++ [network])
            ∨ (network.key ∉ nets.map Network.key
              ∧ (includeIgnored || !network.ignored) = false
              ∧ enumerateEntry env host manager converter includeIgnored nets cursor = nets)) := by
  cases accepts : manager.accept converter cursor with
  | none => exact Or.inl ⟨rfl, by simp [enumerateEntry, accepts]⟩
  | some accepted =>
      refine Or.inr ⟨accepted, networkOf env host manager cursor accepted, rfl, rfl, ?_⟩
      have unfolded
          : enumerateEntry env host manager converter includeIgnored nets cursor
            = if nets.any fun net => net.key = (networkOf env host manager cursor accepted).key then
                nets.map fun net =>
                  if net.key = (networkOf env host manager cursor accepted).key then
                    net.takeAddress accepted.ip cursor.adapterType
                  else net
              else if includeIgnored || !(networkOf env host manager cursor accepted).ignored then
                nets ++ [networkOf env host manager cursor accepted]
              else nets := by
        rw [enumerateEntry, accepts]
        rfl
      rw [unfolded]
      generalize networkOf env host manager cursor accepted = network
      by_cases known : network.key ∈ nets.map Network.key
      · have any : (nets.any fun net => net.key = network.key) = true := by
          obtain ⟨net, member, same⟩ := List.mem_map.mp known
          exact List.any_eq_true.mpr ⟨net, member, by simpa using same⟩
        exact Or.inl ⟨known, if_pos any⟩
      · have none : ¬ (nets.any fun net => net.key = network.key) = true := by
          rw [List.any_eq_true]
          rintro ⟨net, member, same⟩
          exact known (List.mem_map.mpr ⟨net, member, by simpa using same⟩)
        rw [if_neg none]
        cases shows : includeIgnored || !network.ignored with
        | true => exact Or.inr (Or.inl ⟨known, rfl, if_pos rfl⟩)
        | false => exact Or.inr (Or.inr ⟨known, rfl, if_neg (by simp)⟩)

variable {env host manager converter includeIgnored}

/-- What holds of the networks that entries make, and still holds when they take addresses over,
holds of every network of an enumeration, by induction on the entries.
-/
theorem forall_enumerate {p : Network → Prop}
    (new
      : ∀ cursor accepted,
          manager.accept converter cursor = some accepted
          → (includeIgnored || !(networkOf env host manager cursor accepted).ignored) = true
          → p (networkOf env host manager cursor accepted))
    (takes : ∀ net ip adapterType, p net → p (net.takeAddress ip adapterType))
    (interfaces : List IfAddrs)
    : ∀ net ∈ enumerate env host manager converter includeIgnored interfaces, p net := by
  unfold enumerate
  apply List.foldlRecOn (motive := fun nets => ∀ net ∈ nets, p net) interfaces
  · exact List.forall_mem_nil p
  · intro nets old cursor _
    obtain ⟨-, same⟩ | ⟨accepted, network, accepts, rfl, entry⟩ :=
      enumerateEntry_cases env host manager converter includeIgnored nets cursor
    · rwa [same]
    · obtain ⟨-, joins⟩ | ⟨-, shown, adds⟩ | ⟨-, -, same⟩ := entry
      · rw [joins]
        intro net member
        obtain ⟨before, known, rfl⟩ := List.mem_map.mp member
        split
        · exact takes before _ _ (old before known)
        · exact old before known
      · rw [adds]
        intro net member
        rcases List.mem_append.mp member with known | last
        · exact old net known
        · rw [List.mem_singleton.mp last]
          exact new cursor accepted accepts shown
      · rwa [same]

/-- A network that takes an address over keeps its key, its name and prefix, and what it is ignored
for.
-/
theorem takeAddress_frame (env : Environment) (network : Network) (ip : InterfaceAddress)
    (adapterType : AdapterType)
    : (network.takeAddress ip adapterType).key = network.key
      ∧ (network.takeAddress ip adapterType).mapKey env = network.mapKey env
      ∧ (network.takeAddress ip adapterType).ignored = network.ignored
      ∧ (network.takeAddress ip adapterType).ips = network.ips ++ [ip] := by
  unfold Network.takeAddress
  split <;> exact ⟨rfl, rfl, rfl, rfl⟩

/-- The networks of an enumeration have addresses and the keys of their names and prefixes, and they
are not ignored unless ignored networks are included.
-/
theorem mem_enumerate {interfaces : List IfAddrs} {net : Network}
    (member : net ∈ enumerate env host manager converter includeIgnored interfaces)
    : net.ips ≠ [] ∧ net.key = net.mapKey env ∧ (includeIgnored = false → net.ignored = false) := by
  revert net
  apply forall_enumerate
  · intro cursor accepted _ shown
    refine ⟨by simp [networkOf, newNetwork, Network.addIP], rfl, ?_⟩
    intro hides
    simpa [hides] using shown
  · rintro net ip adapterType ⟨addressed, labelled, shown⟩
    obtain ⟨key, mapKey, ignored, ips⟩ := takeAddress_frame env net ip adapterType
    exact ⟨by simp [ips], by rw [key, mapKey, labelled], fun hides => ignored.trans (shown hides)⟩

end Enumerate

-----------------------------------------------------------------------------------------
-- The loop
-----------------------------------------------------------------------------------------

/-- An object after the network at a place took an address over. -/
def takeAt (o : Nat) (ip : InterfaceAddress) (adapterType : AdapterType) (object : Nat × Network)
    : Nat × Network :=
  if object.1 = o then (object.1, object.2.takeAddress ip adapterType) else object

section TakeAt

variable (o : Nat) (ip : InterfaceAddress) (adapterType : AdapterType) (object : Nat × Network)

@[simp] theorem takeAt_fst : (takeAt o ip adapterType object).1 = object.1 := by
  unfold takeAt
  split <;> rfl

@[simp] theorem takeAt_key : (takeAt o ip adapterType object).2.key = object.2.key := by
  unfold takeAt Network.takeAddress
  split_ifs <;> rfl

@[simp] theorem map_fst_takeAt (objects : List (Nat × Network))
    : (objects.map (takeAt o ip adapterType)).map Prod.fst = objects.map Prod.fst := by
  rw [List.map_map]
  exact List.map_congr_left fun object _ => takeAt_fst o ip adapterType object

end TakeAt

section Conversion

variable {env : Environment} {host : ByteBuffer.Host} {manager : BasicNetworkManager}
  {converter : IfAddrsConverter} {includeIgnored : Bool} {heap : Heap Network}
  {networks : List Nat} {objects : List (Nat × Network)} {state : Conversion}

variable (heap networks) in
/-- The loop of `convert_if_addrs` has made these objects and no others that are still live: they are
behind the list that it was given, and in the map under their keys.
-/
structure Converted (objects : List (Nat × Network)) (state : Conversion) : Prop where
  listed : state.networks = networks ++ objects.map Prod.fst
  live : ∀ object ∈ objects, state.heap.objects object.1 = some object.2
  distinct : (objects.map Prod.fst).Nodup
  fresh : ∀ object ∈ objects, heap.next ≤ object.1
  others : ∀ o, o ∉ objects.map Prod.fst → state.heap.objects o = heap.objects o
  next : heap.next ≤ state.heap.next
  keys : (objects.map fun object => object.2.key).Nodup
  mapped : ∀ key, state.currentNetworks[key]?
    = (objects.find? fun object => object.2.key = key).map Prod.fst

variable (heap networks) in
/-- Before the first entry. -/
theorem Converted.start : Converted heap networks [] ⟨heap, ∅, networks⟩ where
  listed := by simp
  live := by simp
  distinct := List.nodup_nil
  fresh := by simp
  others _ _ := rfl
  next := Nat.le_refl _
  keys := List.nodup_nil
  mapped := by simp

/-- The objects made so far are not at the next place of the heap. -/
theorem Converted.ne_next (converted : Converted heap networks objects state)
    {object : Nat × Network} (member : object ∈ objects)
    : object.1 ≠ state.heap.next := by
  have := state.heap.lt_next (converted.live object member)
  omega

/-- A network that is not kept is created and deleted again. -/
theorem Converted.drop (converted : Converted heap networks objects state)
    {network : Network} (hidden : (includeIgnored || !network.ignored) = false) (key : Text)
    : ∃ after,
        state.addNetwork includeIgnored key network = some after
        ∧ Converted heap networks objects after := by
  have created : (state.heap.create network).objects state.heap.next = some network := by
    simp [Heap.create]
  obtain ⟨after, deletes, values, next⟩ := Heap.delete_spec created
  have unused : state.heap.objects state.heap.next = none := by
    cases found : state.heap.objects state.heap.next with
    | none => rfl
    | some other => exact absurd (state.heap.lt_next found) (Nat.lt_irrefl _)
  have same : after.objects = state.heap.objects := by
    funext o
    rw [values]
    by_cases here : o = state.heap.next
    · rw [here, Function.update_self, unused]
    · rw [Function.update_of_ne here]
      exact Function.update_of_ne here _ _
  have moved : after.next = state.heap.next + 1 := next
  have before := converted.next
  refine ⟨{ state with heap := after }, by simp [Conversion.addNetwork, hidden, deletes], ?_⟩
  exact
    { converted with
      live object member := by
        change after.objects object.1 = _
        rw [same, converted.live object member]
      others o missing := by
        change after.objects o = _
        rw [same, converted.others o missing]
      next := by
        change heap.next ≤ after.next
        omega }

/-- A network of a new key is created, listed and filed in the map. -/
theorem Converted.add (converted : Converted heap networks objects state)
    {network : Network} (shown : (includeIgnored || !network.ignored) = true)
    (missing : state.currentNetworks[network.key]? = none)
    : ∃ after,
        state.addNetwork includeIgnored network.key network = some after
        ∧ Converted heap networks (objects ++ [(state.heap.next, network)]) after := by
  have absent : ∀ object ∈ objects, object.2.key ≠ network.key := by
    rw [converted.mapped, Option.map_eq_none_iff, List.find?_eq_none] at missing
    simpa using missing
  have kept {o : Nat} (other : o ≠ state.heap.next)
      : (state.heap.create network).objects o = state.heap.objects o :=
    Function.update_of_ne other _ _
  have before := converted.next
  have each {p : Nat × Network → Prop} (old : ∀ object ∈ objects, p object)
      (new : p (state.heap.next, network))
      : ∀ object ∈ objects ++ [(state.heap.next, network)], p object := by
    intro object member
    rcases List.mem_append.mp member with known | last
    · exact old object known
    · rw [List.mem_singleton.mp last]
      exact new
  refine ⟨_, by rw [Conversion.addNetwork, if_pos shown], ?_⟩
  constructor
  case listed => simp [converted.listed]
  case live =>
    refine each ?_ (Function.update_self _ _ _)
    intro object old
    rw [kept (converted.ne_next old), converted.live object old]
  case distinct =>
    rw [List.map_append, List.nodup_append]
    refine ⟨converted.distinct, List.nodup_singleton _, ?_⟩
    intro o old last new same
    obtain ⟨object, member, rfl⟩ := List.mem_map.mp old
    exact converted.ne_next member (same.trans (List.mem_singleton.mp new))
  case fresh => exact each converted.fresh before
  case others =>
    intro o missing
    simp only [List.map_append, List.map_cons, List.map_nil, List.mem_append, List.mem_singleton,
      not_or] at missing
    rw [kept missing.2, converted.others o missing.1]
  case next => exact Nat.le_succ_of_le before
  case keys =>
    rw [List.map_append, List.nodup_append]
    refine ⟨converted.keys, List.nodup_singleton _, ?_⟩
    intro key old last new same
    obtain ⟨object, member, rfl⟩ := List.mem_map.mp old
    exact absent object member (same.trans (List.mem_singleton.mp new))
  case mapped =>
    intro key
    rw [Std.ExtTreeMap.getElem?_insert, List.find?_append]
    simp only [Std.compare_eq_iff_eq]
    by_cases same : network.key = key
    · have none : (objects.find? fun object => object.2.key = key) = none := by
        rw [← same, List.find?_eq_none]
        simpa using absent
      simp [same, none]
    · simp [same, converted.mapped]

/-- A further address of a key goes to the network that the map finds. -/
theorem Converted.join (converted : Converted heap networks objects state)
    {found : Nat × Network} (member : found ∈ objects) (ip : InterfaceAddress)
    (adapterType : AdapterType)
    : ∃ after,
        state.addAddress found.1 ip adapterType = some after
        ∧ Converted heap networks (objects.map (takeAt found.1 ip adapterType))
            after := by
  obtain ⟨after, modifies, values, next⟩ := Heap.modify_spec (converted.live found member)
    fun network => network.takeAddress ip adapterType
  have each {p : Nat × Network → Prop}
      (old : ∀ object ∈ objects, p (takeAt found.1 ip adapterType object))
      : ∀ object ∈ objects.map (takeAt found.1 ip adapterType), p object := by
    intro object' member'
    obtain ⟨object, known, rfl⟩ := List.mem_map.mp member'
    exact old object known
  refine ⟨{ state with heap := after }, by simp [Conversion.addAddress, modifies], ?_⟩
  constructor
  case listed => rw [map_fst_takeAt, converted.listed]
  case live =>
    refine each fun object old => ?_
    rw [takeAt_fst]
    simp only [values, takeAt]
    by_cases same : object.1 = found.1
    · have isFound : object = found := List.inj_on_of_nodup_map converted.distinct old member same
      simp [isFound]
    · simp [same, converted.live object old]
  case distinct =>
    rw [map_fst_takeAt]
    exact converted.distinct
  case fresh =>
    refine each fun object old => ?_
    rw [takeAt_fst]
    exact converted.fresh object old
  case others =>
    intro o missing
    rw [map_fst_takeAt] at missing
    have other : o ≠ found.1 := by
      rintro rfl
      exact missing (List.mem_map_of_mem member)
    change after.objects o = heap.objects o
    rw [values, Function.update_of_ne other, converted.others o missing]
  case next => exact next ▸ converted.next
  case keys =>
    rw [List.map_map]
    simpa only [Function.comp_def, takeAt_key] using converted.keys
  case mapped =>
    intro key
    rw [List.find?_map, Option.map_map]
    simp only [Function.comp_def, takeAt_key, takeAt_fst]
    exact converted.mapped key

/-- The map has no place for a key that none of the objects has. -/
theorem Converted.lookup_eq_none (converted : Converted heap networks objects state) {key : Text}
    (unknown : key ∉ (objects.map Prod.snd).map Network.key)
    : state.currentNetworks[key]? = none := by
  rw [converted.mapped, Option.map_eq_none_iff, List.find?_eq_none]
  simpa using unknown

/-- The map has the place of the object with a key. -/
theorem Converted.lookup_eq_some (converted : Converted heap networks objects state)
    {object : Nat × Network} (member : object ∈ objects)
    : state.currentNetworks[object.2.key]? = some object.1 := by
  rw [converted.mapped]
  cases found : objects.find? fun other => other.2.key = object.2.key with
  | none =>
      have missing := List.find?_eq_none.mp found object member
      simp at missing
  | some other =>
      have sameKey : other.2.key = object.2.key := by simpa using List.find?_some found
      rw [List.inj_on_of_nodup_map converted.keys (List.mem_of_find?_eq_some found) member sameKey,
        Option.map_some]

variable (env host manager converter includeIgnored) in
/-- The body of the loop on an accepted entry, with the network that it would make. -/
theorem convertEntry_accepted {cursor : IfAddrs} {accepted : Accepted} {network : Network}
    (accepts : manager.accept converter cursor = some accepted)
    (made : networkOf env host manager cursor accepted = network)
    : convertEntry env host manager converter includeIgnored state cursor
      = match state.currentNetworks[network.key]? with
        | none => state.addNetwork includeIgnored network.key network
        | some o => state.addAddress o accepted.ip cursor.adapterType := by
  rw [convertEntry, accepts, ← made]
  rfl

variable (env host manager converter includeIgnored) in
/-- One entry of the loop makes of the objects what it makes of the networks. -/
theorem convertEntry_converted (converted : Converted heap networks objects state)
    (cursor : IfAddrs)
    : ∃ after objects',
        convertEntry env host manager converter includeIgnored state cursor = some after
        ∧ Converted heap networks objects' after
        ∧ objects'.map Prod.snd
          = enumerateEntry env host manager converter includeIgnored (objects.map Prod.snd)
              cursor := by
  obtain ⟨rejects, same⟩ | ⟨accepted, network, accepts, made, entry⟩ :=
    enumerateEntry_cases env host manager converter includeIgnored (objects.map Prod.snd) cursor
  · exact ⟨state, objects, by rw [convertEntry, rejects], converted, same.symm⟩
  · rw [convertEntry_accepted env host manager converter includeIgnored accepts made]
    obtain ⟨known, joins⟩ | ⟨unknown, shown, adds⟩ | ⟨unknown, hidden, same⟩ := entry
    · obtain ⟨object, member, sameKey⟩ : ∃ object ∈ objects, object.2.key = network.key := by
        simpa using known
      obtain ⟨after, adds, next⟩ := converted.join member accepted.ip cursor.adapterType
      rw [← sameKey, converted.lookup_eq_some member]
      refine ⟨after, _, adds, next, ?_⟩
      rw [joins, List.map_map, List.map_map]
      apply List.map_congr_left
      intro other isOther
      -- in the list a key belongs to one object
      have one : other.1 = object.1 ↔ other.2.key = network.key := by
        rw [← sameKey]
        constructor
        · intro same
          rw [List.inj_on_of_nodup_map converted.distinct isOther member same]
        · intro same
          rw [List.inj_on_of_nodup_map converted.keys isOther member same]
      by_cases same : other.1 = object.1
      · simp [takeAt, same, one.mp same]
      · simp [takeAt, same, mt one.mpr same]
    · have lookup := converted.lookup_eq_none unknown
      obtain ⟨after, lists, next⟩ := converted.add shown lookup
      rw [lookup]
      exact ⟨after, _, lists, next, by simp [adds]⟩
    · obtain ⟨after, drops, next⟩ := converted.drop hidden network.key
      rw [converted.lookup_eq_none unknown]
      exact ⟨after, objects, drops, next, same.symm⟩

variable (env host manager converter includeIgnored) in
/-- The whole loop, by induction on the entries. -/
theorem foldlM_converted (converted : Converted heap networks objects state)
    (interfaces : List IfAddrs)
    : ∃ after objects',
        interfaces.foldlM (convertEntry env host manager converter includeIgnored) state
          = some after
        ∧ Converted heap networks objects' after
        ∧ objects'.map Prod.snd
          = interfaces.foldl (enumerateEntry env host manager converter includeIgnored)
              (objects.map Prod.snd) := by
  induction interfaces generalizing objects state with
  | nil => exact ⟨state, objects, rfl, converted, rfl⟩
  | cons cursor rest ih =>
      obtain ⟨next, nextObjects, steps, convertedNext, nets⟩ :=
        convertEntry_converted env host manager converter includeIgnored converted cursor
      obtain ⟨after, objects', runs, convertedAfter, final⟩ := ih convertedNext
      refine ⟨after, objects', ?_, convertedAfter, ?_⟩
      · rw [List.foldlM_cons, steps, Option.bind_eq_bind, Option.bind_some, runs]
      · rw [final, nets, List.foldl_cons]

end Conversion

/-- `convert_if_addrs` succeeds on any heap and appends exactly the networks of the enumeration to the
list, as new objects with keys of their own.
-/
theorem convertIfAddrs_converted (env : Environment) (host : ByteBuffer.Host)
    (manager : BasicNetworkManager) (converter : IfAddrsConverter) (includeIgnored : Bool)
    (heap : Heap Network) (interfaces : List IfAddrs) (networks : List Nat)
    : ∃ state objects,
        convertIfAddrs env host manager converter includeIgnored heap interfaces networks
          = some (state.heap, networks ++ objects.map Prod.fst)
        ∧ Converted heap networks objects state
        ∧ objects.map Prod.snd
          = enumerate env host manager converter includeIgnored interfaces := by
  obtain ⟨state, objects, runs, converted, nets⟩ :=
    foldlM_converted env host manager converter includeIgnored (Converted.start heap networks)
      interfaces
  exact ⟨state, objects, by simp [convertIfAddrs, runs, converted.listed], converted, nets⟩

/-- An enumeration hands new networks over, with addresses and keys of their own. -/
theorem convertIfAddrs_enumerate (env : Environment) (host : ByteBuffer.Host)
    (manager : BasicNetworkManager) (converter : IfAddrsConverter) (includeIgnored : Bool)
    (base : NetworkManagerBase) (interfaces : List IfAddrs)
    : ∃ after items,
        convertIfAddrs env host manager converter includeIgnored base.heap interfaces []
          = some (after, items.map Prod.fst)
        ∧ HandedOver base after items
        ∧ items.map Prod.snd = enumerate env host manager converter includeIgnored interfaces
        ∧ (items.map fun item => item.2.mapKey env).Nodup
        ∧ (∀ item ∈ items, item.2.key = item.2.mapKey env)
        ∧ (includeIgnored = false → ∀ item ∈ items, item.2.ignored = false) := by
  obtain ⟨state, items, converts, converted, nets⟩ :=
    convertIfAddrs_converted env host manager converter includeIgnored base.heap interfaces []
  have known {item : Nat × Network} (member : item ∈ items) := by
    have isNet : item.2 ∈ items.map Prod.snd := List.mem_map_of_mem member
    rw [nets] at isNet
    exact mem_enumerate isNet
  have labelled (item : Nat × Network) (member : item ∈ items) : item.2.key = item.2.mapKey env :=
    (known member).2.1
  refine ⟨state.heap, items, converts, ?_, nets, ?_, labelled, ?_⟩
  · exact ⟨converted.live, converted.distinct, converted.fresh, converted.others,
      fun item member => (known member).1⟩
  · rw [← List.map_congr_left labelled]
    exact converted.keys
  · exact fun hides item member => (known member).2.2 hides

end RtcBase.Networks
