import RtcBase.Library.Grouping
import RtcBase.Networks.Enumeration
import RtcBase.Networks.Keys

/-! `convert_if_addrs` groups interface addresses by name, prefix and prefix length: the networks of an
enumeration are the groups of the entries that pass the filters.
-/

namespace RtcBase.Networks

open Library

-----------------------------------------------------------------------------------------
-- Subnets
-----------------------------------------------------------------------------------------

/-- What the addresses of a network share. -/
structure Subnet where
  name : Text
  prefixIP : IPAddress
  prefixLength : Int
  deriving DecidableEq, Repr

namespace Subnet

def key (env : Environment) (subnet : Subnet) : Text :=
  makeNetworkKey env subnet.name subnet.prefixIP subnet.prefixLength

/-- The subnet of an interface address by its mask. -/
def ofMask (host : ByteBuffer.Host) (name : Text) (ip mask : IPAddress) : Subnet where
  name := name
  prefixIP := ip.truncateIP host (mask.countIPMaskBits host)
  prefixLength := mask.countIPMaskBits host

end Subnet

def Network.subnet (network : Network) : Subnet where
  name := network.name
  prefixIP := network.prefixIP
  prefixLength := network.prefixLength

/-- Networks of one subnet are ignored alike. -/
theorem isIgnoredNetwork_congr (manager : BasicNetworkManager) {a b : Network}
    (same : a.subnet = b.subnet)
    : manager.isIgnoredNetwork a = manager.isIgnoredNetwork b := by
  have names : a.name = b.name := congrArg Subnet.name same
  have prefixes : a.prefixIP = b.prefixIP := congrArg Subnet.prefixIP same
  simp only [BasicNetworkManager.isIgnoredNetwork, names, prefixes]

/-- Networks of the subnet are put on the list. -/
def Kept (manager : BasicNetworkManager) (includeIgnored : Bool) (subnet : Subnet) : Prop :=
  includeIgnored = true
    ∨ ∀ network : Network, network.subnet = subnet → manager.isIgnoredNetwork network = false

/-- Whether a subnet is kept can be told from any of its networks. -/
theorem kept_subnet_iff (manager : BasicNetworkManager) (includeIgnored : Bool) (network : Network)
    : Kept manager includeIgnored network.subnet
      ↔ includeIgnored = true ∨ manager.isIgnoredNetwork network = false := by
  constructor
  · rintro (all | kept)
    · exact Or.inl all
    · exact Or.inr (kept network rfl)
  · rintro (all | visible)
    · exact Or.inl all
    · refine Or.inr ?_
      intro other same
      rw [isIgnoredNetwork_congr manager same, visible]

-----------------------------------------------------------------------------------------
-- Entries that pass the filters
-----------------------------------------------------------------------------------------

/-- An entry passes the filters with an address and a mask. -/
def Passes (manager : BasicNetworkManager) (converter : IfAddrsConverter) (cursor : IfAddrs)
    (ip : InterfaceAddress) (mask : IPAddress)
    : Prop :=
  ∃ addr netmask,
    cursor.ifaAddr = some addr
    ∧ cursor.ifaNetmask = some netmask
    ∧ cursor.ifaFlags &&& iffRunning ≠ 0
    ∧ (addr.saFamily = afInet ∨ addr.saFamily = afInet6)
    ∧ (addr.saFamily = afInet6 → manager.ipv6Enabled = true)
    ∧ converter.convertIfAddrsToIPAddress cursor addr netmask = some (ip, mask)
    ∧ isIgnoredIPv6 ip = false

/-- A converted address has the family that it was read with. -/
theorem family_of_convert {converter : IfAddrsConverter} {cursor : IfAddrs}
    {addr netmask : SockAddr} {ip : InterfaceAddress} {mask : IPAddress}
    (converted : converter.convertIfAddrsToIPAddress cursor addr netmask = some (ip, mask))
    : (addr.saFamily = afInet ∧ ip.ip.family = .inet)
      ∨ (addr.saFamily = afInet6 ∧ ip.ip.family = .inet6) := by
  unfold IfAddrsConverter.convertIfAddrsToIPAddress at converted
  split at converted
  · rename_i inet
    cases converted
    exact Or.inl ⟨inet, rfl⟩
  · split at converted
    · rename_i inet6
      cases attributes : converter.convertNativeAttributesToIPAttributes cursor with
      | none => simp [attributes] at converted
      | some ipAttributes =>
          simp only [attributes, Option.bind_eq_bind, Option.bind_some, Option.some.injEq,
            Prod.mk.injEq] at converted
          obtain ⟨rfl, -⟩ := converted
          exact Or.inr ⟨inet6, rfl⟩
    · cases converted

/-- Only IPv6 addresses are ignored. -/
theorem isIgnoredIPv6_of_inet {ip : InterfaceAddress} (inet : ip.ip.family = .inet)
    : isIgnoredIPv6 ip = false := by
  simp [isIgnoredIPv6, inet]

theorem afInet_ne_afInet6 : afInet ≠ afInet6 := by decide

/-- The loop goes on with the entries that pass the filters, by cases in their order. -/
theorem accept_iff (manager : BasicNetworkManager) (converter : IfAddrsConverter)
    (cursor : IfAddrs) (ip : InterfaceAddress) (mask : IPAddress)
    : (∃ scopeId, manager.accept converter cursor = some ⟨ip, mask, scopeId⟩)
      ↔ Passes manager converter cursor ip mask := by
  constructor
  · rintro ⟨scopeId, accepted⟩
    unfold BasicNetworkManager.accept at accepted
    simp only [Option.bind_eq_bind, Option.bind_eq_some_iff] at accepted
    obtain ⟨addr, hasAddr, netmask, hasNetmask, accepted⟩ := accepted
    split at accepted
    · cases accepted
    · rename_i running
      split at accepted
      · cases accepted
      · split at accepted
        · cases accepted
        · rename_i enabled
          obtain ⟨⟨found, foundMask⟩, converted, accepted⟩ := Option.bind_eq_some_iff.mp accepted
          have enabledFor (inet6 : addr.saFamily = afInet6) : manager.ipv6Enabled = true := by
            simpa [inet6] using enabled
          rcases family_of_convert converted with ⟨inet, family⟩ | ⟨inet6, family⟩
          · have notInet6 : addr.saFamily ≠ afInet6 := inet ▸ afInet_ne_afInet6
            rw [if_neg notInet6] at accepted
            cases accepted
            exact ⟨addr, netmask, hasAddr, hasNetmask, running, Or.inl inet, enabledFor, converted,
              isIgnoredIPv6_of_inet family⟩
          · rw [if_pos inet6] at accepted
            split at accepted
            · cases accepted
            · rename_i visible
              cases accepted
              exact ⟨addr, netmask, hasAddr, hasNetmask, running, Or.inr inet6, enabledFor,
                converted, by simpa using visible⟩
  · rintro ⟨addr, netmask, hasAddr, hasNetmask, running, known, enabled, converted, visible⟩
    have family : ¬ (addr.saFamily ≠ afInet ∧ addr.saFamily ≠ afInet6) := by
      rcases known with inet | inet6
      · simp [inet]
      · simp [inet6]
    have allowed : ¬ (addr.saFamily = afInet6 ∧ (!manager.ipv6Enabled) = true) := by
      rintro ⟨inet6, disabled⟩
      simp [enabled inet6] at disabled
    rw [BasicNetworkManager.accept, hasAddr, Option.bind_eq_bind, Option.bind_some, hasNetmask,
      Option.bind_eq_bind, Option.bind_some, if_neg running, if_neg family, if_neg allowed,
      converted]
    simp only [Option.bind_some, visible]
    by_cases inet6 : addr.saFamily = afInet6
    · exact ⟨addr.sin6ScopeId.toInt, by simp [inet6]⟩
    · exact ⟨0, by simp [inet6]⟩

/-- An accepted address is an IPv4 or an IPv6 address. -/
theorem Passes.specified {manager : BasicNetworkManager} {converter : IfAddrsConverter}
    {cursor : IfAddrs} {ip : InterfaceAddress} {mask : IPAddress}
    (passes : Passes manager converter cursor ip mask)
    : ip.ip.isUnspec = false := by
  obtain ⟨addr, netmask, -, -, -, -, -, converted, -⟩ := passes
  rcases family_of_convert converted with ⟨-, family⟩ | ⟨-, family⟩
  · simp [IPAddress.isUnspec, family]
  · simp [IPAddress.isUnspec, family]

/-- The number of mask bits is not negative. -/
theorem countIPMaskBits_nonneg (host : ByteBuffer.Host) (mask : IPAddress)
    : 0 ≤ mask.countIPMaskBits host := by
  cases mask with
  | unspec => exact Int.le_refl 0
  | ip4 address => exact Int.natCast_nonneg _
  | ip6 address => exact Int.natCast_nonneg _

/-- Truncation of an address keeps its family, unless the length is negative. -/
theorem isUnspec_truncateIP (host : ByteBuffer.Host) {ip : IPAddress} {length : Int}
    (specified : ip.isUnspec = false) (nonneg : 0 ≤ length)
    : (ip.truncateIP host length).isUnspec = false := by
  unfold IPAddress.truncateIP
  rw [if_neg (by omega)]
  cases ip with
  | unspec => cases specified
  | ip4 address =>
      simp only
      split
      · rfl
      · split <;> rfl
  | ip6 address =>
      simp only
      split
      · rfl
      · split <;> rfl

/-- What an entry contributes: its address, filed under its subnet. -/
def contribution (host : ByteBuffer.Host) (manager : BasicNetworkManager)
    (converter : IfAddrsConverter) (cursor : IfAddrs)
    : Option (Subnet × InterfaceAddress) :=
  (manager.accept converter cursor).map fun accepted =>
    (Subnet.ofMask host cursor.ifaName accepted.ip.ip accepted.mask, accepted.ip)

/-- Entries contribute when they pass the filters. -/
theorem contribution_iff (host : ByteBuffer.Host) (manager : BasicNetworkManager)
    (converter : IfAddrsConverter) (cursor : IfAddrs) (subnet : Subnet) (ip : InterfaceAddress)
    : contribution host manager converter cursor = some (subnet, ip)
      ↔ ∃ mask,
        Passes manager converter cursor ip mask
        ∧ subnet = Subnet.ofMask host cursor.ifaName ip.ip mask := by
  rw [contribution, Option.map_eq_some_iff]
  constructor
  · rintro ⟨⟨ip', mask, scopeId⟩, accepted, same⟩
    obtain ⟨rfl, rfl⟩ := Prod.mk.inj same
    exact ⟨mask, (accept_iff manager converter cursor ip' mask).mp ⟨scopeId, accepted⟩, rfl⟩
  · rintro ⟨mask, passes, rfl⟩
    obtain ⟨scopeId, accepted⟩ := (accept_iff manager converter cursor ip mask).mpr passes
    exact ⟨⟨ip, mask, scopeId⟩, accepted, rfl⟩

/-- The subnet of a contributed address has a prefix of its family, to which the address truncates.
-/
theorem prefix_of_contribution {host : ByteBuffer.Host} {manager : BasicNetworkManager}
    {converter : IfAddrsConverter} {cursor : IfAddrs} {subnet : Subnet} {ip : InterfaceAddress}
    (contributes : contribution host manager converter cursor = some (subnet, ip))
    : subnet.prefixIP = ip.ip.truncateIP host subnet.prefixLength
      ∧ subnet.prefixIP.isUnspec = false := by
  obtain ⟨mask, passes, rfl⟩ :=
    (contribution_iff host manager converter cursor subnet ip).mp contributes
  exact ⟨rfl, isUnspec_truncateIP host passes.specified (countIPMaskBits_nonneg host mask)⟩

-----------------------------------------------------------------------------------------
-- The groups of an enumeration
-----------------------------------------------------------------------------------------

/-- The subnet and the addresses of a network. -/
def Network.group (network : Network) : Subnet × List InterfaceAddress :=
  (network.subnet, network.ips)

section Groups

variable {env : Environment} {host : ByteBuffer.Host} {manager : BasicNetworkManager}
  {converter : IfAddrsConverter} {includeIgnored : Bool}

/-- A network that takes an address over keeps its subnet. -/
theorem takeAddress_group (network : Network) (ip : InterfaceAddress) (adapterType : AdapterType)
    : (network.takeAddress ip adapterType).group = (network.subnet, network.ips ++ [ip]) := by
  unfold Network.takeAddress
  split <;> rfl

/-- An accepted entry contributes its address to the subnet of the network that it would make. -/
theorem contribution_networkOf {cursor : IfAddrs} {accepted : Accepted}
    (accepts : manager.accept converter cursor = some accepted)
    : contribution host manager converter cursor
      = some ((networkOf env host manager cursor accepted).subnet, accepted.ip) := by
  rw [contribution, accepts]
  rfl

/-- The prefixes of the networks are addresses of either family. -/
theorem enumerate_specified {interfaces : List IfAddrs} {net : Network}
    (member : net ∈ enumerate env host manager converter includeIgnored interfaces)
    : net.subnet.prefixIP.isUnspec = false := by
  revert net
  apply forall_enumerate
  · intro cursor accepted accepts _
    exact (prefix_of_contribution (contribution_networkOf accepts)).2
  · intro net ip adapterType specified
    have same : (net.takeAddress ip adapterType).subnet = net.subnet :=
      congrArg Prod.fst (takeAddress_group net ip adapterType)
    rwa [same]

/-- The flag that decides whether a new network is put on the list says whether its subnet is kept.
-/
theorem kept_networkOf_iff (cursor : IfAddrs) (accepted : Accepted)
    : Kept manager includeIgnored (networkOf env host manager cursor accepted).subnet
      ↔ (includeIgnored || !(networkOf env host manager cursor accepted).ignored) = true := by
  have flag
      : (networkOf env host manager cursor accepted).ignored
        = manager.isIgnoredNetwork (networkOf env host manager cursor accepted) :=
    isIgnoredNetwork_congr manager rfl
  rw [kept_subnet_iff, ← flag]
  simp

variable {inetPton4 : Text → Option (Vector Byte 4)} {inetPton6 : Text → Option (Vector Byte 16)}
  (texts : InetTexts env.inetNtop inetPton4 inetPton6)
  (unscoped : ∀ family bytes text, env.inetNtop family bytes = some text → '%' ∉ text)

include texts unscoped

/-- Subnets with a prefix of either family are told apart by their keys. -/
theorem Subnet.key_inj {a b : Subnet} (specifiedA : a.prefixIP.isUnspec = false)
    (specifiedB : b.prefixIP.isUnspec = false) (same : a.key env = b.key env)
    : a = b := by
  obtain ⟨name, prefixIP, prefixLength⟩ := a
  obtain ⟨name', prefixIP', prefixLength'⟩ := b
  obtain ⟨rfl, written, rfl⟩ := makeNetworkKey_parts unscoped same
  obtain rfl := IPAddress.toText_inj texts specifiedA specifiedB written
  rfl

/-- A further entry keeps the networks the groups of what was contributed: one that is filtered out
changes nothing, an address of a subnet that has a network joins it, and any other one makes a
network, unless the subnet is not kept.
-/
theorem enumerateEntry_grouped {nets : List Network} {items : List (Subnet × InterfaceAddress)}
    (labelled : ∀ net ∈ nets, net.key = net.subnet.key env)
    (specified : ∀ net ∈ nets, net.subnet.prefixIP.isUnspec = false)
    (grouped : Grouped (Kept manager includeIgnored) items (nets.map Network.group))
    (cursor : IfAddrs)
    : Grouped (Kept manager includeIgnored)
        (items ++ (contribution host manager converter cursor).toList)
        ((enumerateEntry env host manager converter includeIgnored nets cursor).map
          Network.group) := by
  obtain ⟨rejects, same⟩ | ⟨accepted, network, accepts, made, entry⟩ :=
    enumerateEntry_cases env host manager converter includeIgnored nets cursor
  · simpa [same, contribution, rejects] using grouped
  · have contributes
        : contribution host manager converter cursor = some (network.subnet, accepted.ip) :=
      made ▸ contribution_networkOf accepts
    have kept
        : Kept manager includeIgnored network.subnet
          ↔ (includeIgnored || !network.ignored) = true :=
      made ▸ kept_networkOf_iff cursor accepted
    have ownKey : network.key = network.subnet.key env := by
      rw [← made]
      rfl
    have bySubnet {net : Network} (member : net ∈ nets)
        : net.key = network.key ↔ net.subnet = network.subnet := by
      rw [labelled net member, ownKey]
      constructor
      · exact Subnet.key_inj texts unscoped (specified net member)
          (prefix_of_contribution contributes).2
      · intro same
        rw [same]
    have opened
        : network.subnet ∈ (nets.map Network.group).map Prod.fst
          ↔ network.key ∈ nets.map Network.key := by
      rw [List.map_map, List.mem_map, List.mem_map]
      exact exists_congr fun net => and_congr_right fun member => (bySubnet member).symm
    rw [contributes, Option.toList_some]
    obtain ⟨known, joins⟩ | ⟨unknown, shown, adds⟩ | ⟨-, hidden, same⟩ := entry
    · have groups
          : (nets.map fun net =>
              if net.key = network.key then net.takeAddress accepted.ip cursor.adapterType
              else net).map Network.group
            = (nets.map Network.group).map fun group =>
                if group.1 = network.subnet then (group.1, group.2 ++ [accepted.ip])
                else group := by
        rw [List.map_map, List.map_map]
        apply List.map_congr_left
        intro net member
        have inGroup : net.group.1 = network.subnet ↔ net.key = network.key :=
          (bySubnet member).symm
        simp only [Function.comp_apply, inGroup]
        split
        · exact takeAddress_group net accepted.ip cursor.adapterType
        · rfl
      rw [joins, groups]
      exact grouped.join (opened.mpr known)
    · have alone : network.group = (network.subnet, [accepted.ip]) := by
        rw [← made]
        rfl
      rw [adds, List.map_append, List.map_singleton, alone]
      exact grouped.start (kept.mpr shown) (mt opened.mp unknown)
    · rw [same]
      refine grouped.skip ?_
      rw [kept, hidden]
      simp

/-- The networks of an enumeration are the groups of what its entries contribute, by induction on the
entries from the last one.
-/
theorem enumerate_grouped (interfaces : List IfAddrs)
    : Grouped (Kept manager includeIgnored)
        (interfaces.filterMap (contribution host manager converter))
        ((enumerate env host manager converter includeIgnored interfaces).map Network.group) := by
  induction interfaces using List.reverseRecOn with
  | nil => exact Grouped.nil
  | append_singleton interfaces cursor ih =>
      have grouped := @enumerateEntry_grouped env host manager converter _ _ _ texts unscoped _ _
        (fun net member => (mem_enumerate member).2.1) (fun net => enumerate_specified) ih cursor
      have last
          : (contribution host manager converter cursor).toList
            = [cursor].filterMap (contribution host manager converter) := by
        cases found : contribution host manager converter cursor <;> simp [found]
      rw [last, ← List.filterMap_append] at grouped
      simpa only [enumerate, List.foldl_concat] using grouped

/-- The subnets with a network are the ones that are kept and that have an address. -/
theorem exists_network_iff (interfaces : List IfAddrs) (subnet : Subnet)
    : (∃ net ∈ enumerate env host manager converter includeIgnored interfaces, net.subnet = subnet)
      ↔ Kept manager includeIgnored subnet
        ∧ subnet ∈ (interfaces.filterMap (contribution host manager converter)).map Prod.fst := by
  rw [← (enumerate_grouped texts unscoped interfaces).mem_keys subnet, List.map_map, List.mem_map]
  rfl

end Groups

/-- `convert_if_addrs` succeeds and appends networks with pairwise distinct keys to the list. The
entries that pass the filters contribute their addresses, each filed under its subnet; a network has
exactly the addresses of its subnet, in the order of the entries, all of them with its prefix. Every
subnet with an address has its network, unless it is ignored and ignored networks are not included:
then no network has its key.
-/
theorem convertIfAddrs_groups {env : Environment} {inetPton4 : Text → Option (Vector Byte 4)}
    {inetPton6 : Text → Option (Vector Byte 16)}
    (texts : InetTexts env.inetNtop inetPton4 inetPton6)
    (unscoped : ∀ family bytes text, env.inetNtop family bytes = some text → '%' ∉ text)
    (host : ByteBuffer.Host) (manager : BasicNetworkManager) (converter : IfAddrsConverter)
    (includeIgnored : Bool) (heap : Heap Network) (interfaces : List IfAddrs) (networks : List Nat)
    : (∀ cursor subnet ip,
          contribution host manager converter cursor = some (subnet, ip)
          ↔ ∃ mask,
            Passes manager converter cursor ip mask
            ∧ subnet = Subnet.ofMask host cursor.ifaName ip.ip mask)
      ∧ ∃ (after : Heap Network) (created : List Nat) (nets : List Network),
        convertIfAddrs env host manager converter includeIgnored heap interfaces networks
          = some (after, networks ++ created)
        ∧ created.map after.objects = nets.map some
        ∧ (∀ o < heap.next, after.objects o = heap.objects o)
        ∧ (nets.map Network.key).Nodup
        ∧ (∀ net ∈ nets, net.key = net.subnet.key env)
        ∧ (∀ net ∈ nets, ∀ ip ∈ net.ips, net.prefixIP = ip.ip.truncateIP host net.prefixLength)
        ∧ (∀ net ∈ nets,
          net.ips = filed (interfaces.filterMap (contribution host manager converter)) net.subnet)
        ∧ ∀ cursor ∈ interfaces, ∀ subnet ip,
          contribution host manager converter cursor = some (subnet, ip)
          → ∀ network : Network, network.subnet = subnet
          → if includeIgnored = false ∧ manager.isIgnoredNetwork network = true then
              ∀ net ∈ nets, net.key ≠ subnet.key env
            else ∃ net ∈ nets, net.subnet = subnet := by
  refine ⟨contribution_iff host manager converter, ?_⟩
  obtain ⟨state, objects, converts, converted, nets⟩ :=
    convertIfAddrs_converted env host manager converter includeIgnored heap interfaces networks
  have grouped := @enumerate_grouped env host manager converter includeIgnored _ _ texts unscoped
    interfaces
  have labelled {net : Network}
      (isNet : net ∈ enumerate env host manager converter includeIgnored interfaces)
      : net.key = net.subnet.key env := (mem_enumerate isNet).2.1
  have filedIn {net : Network}
      (isNet : net ∈ enumerate env host manager converter includeIgnored interfaces)
      : net.ips = filed (interfaces.filterMap (contribution host manager converter)) net.subnet :=
    grouped.filed _ (List.mem_map_of_mem isNet)
  refine ⟨state.heap, objects.map Prod.fst,
    enumerate env host manager converter includeIgnored interfaces, converts, ?_, ?_, ?_,
    fun net => labelled, ?_, fun net => filedIn, ?_⟩
  · rw [← nets, List.map_map, List.map_map]
    exact List.map_congr_left converted.live
  · intro o old
    refine converted.others o fun made => ?_
    obtain ⟨object, member, rfl⟩ := List.mem_map.mp made
    exact Nat.lt_irrefl _ (Nat.lt_of_lt_of_le old (converted.fresh object member))
  · rw [← nets, List.map_map]
    exact converted.keys
  · intro net isNet ip isIP
    rw [filedIn isNet, mem_filed] at isIP
    obtain ⟨cursor, -, contributes⟩ := List.mem_filterMap.mp isIP
    exact (prefix_of_contribution contributes).1
  · intro cursor isCursor subnet ip contributes network isSubnet
    have inItems
        : subnet ∈ (interfaces.filterMap (contribution host manager converter)).map Prod.fst :=
      List.mem_map.mpr ⟨(subnet, ip), List.mem_filterMap.mpr ⟨cursor, isCursor, contributes⟩, rfl⟩
    have keptIff := kept_subnet_iff manager includeIgnored network
    rw [isSubnet] at keptIff
    have exists_iff := @exists_network_iff env host manager converter includeIgnored _ _ texts
      unscoped interfaces subnet
    split
    · rename_i dropped
      intro net isNet sameKey
      have same : net.subnet = subnet := Subnet.key_inj texts unscoped (enumerate_specified isNet)
        (prefix_of_contribution contributes).2 ((labelled isNet).symm.trans sameKey)
      have kept := (exists_iff.mp ⟨net, isNet, same⟩).1
      rw [keptIff] at kept
      simp [dropped] at kept
    · rename_i included
      apply exists_iff.mpr ⟨keptIff.mpr ?_, inItems⟩
      by_contra neither
      simp only [not_or, Bool.not_eq_true, Bool.not_eq_false] at neither
      exact included neither

/-- A running interface with an IPv4 address and a mask of 24 bits. -/
def ip4Interface (name : Text) (address : Vector Byte 4) : IfAddrs where
  ifaName := name
  ifaFlags := iffRunning
  ifaAddr := some ⟨afInet, address, .replicate 16 0, 0⟩
  ifaNetmask := some ⟨afInet, #v[255, 255, 255, 0], .replicate 16 0, 0⟩

/-- Two addresses of one subnet, with an ignored network between them. -/
theorem convertIfAddrs_groups_pair
    : let env : Environment := ⟨fullNtop, fun _ items => items, fun _ items => List.Perm.refl items⟩
      let host : ByteBuffer.Host :=
        ⟨.little, true, fun n => List.replicate n 0, fun _ => List.length_replicate⟩
      ∃ (after : Heap Network) (created : List Nat) (nets : List Network),
        convertIfAddrs env host {} createIfAddrsConverter false .empty
            [ip4Interface "eth0".toList #v[10, 0, 0, 1],
              ip4Interface "vmnet1".toList #v[10, 0, 1, 1],
              ip4Interface "eth0".toList #v[10, 0, 0, 2]] []
          = some (after, created)
        ∧ created.map after.objects = nets.map some
        ∧ (∃ net ∈ nets, net.ips = [⟨.ip4 #v[10, 0, 0, 1], 0⟩, ⟨.ip4 #v[10, 0, 0, 2], 0⟩])
        ∧ ∀ net ∈ nets, net.key ≠ makeNetworkKey env "vmnet1".toList (.ip4 #v[10, 0, 1, 0]) 24 := by
  intro env host
  obtain ⟨-, after, created, nets, converts, lives, -, -, -, -, addresses, decided⟩ :=
    @convertIfAddrs_groups env _ _ full_inetTexts full_unscoped host {} createIfAddrsConverter false
      .empty
      [ip4Interface "eth0".toList #v[10, 0, 0, 1], ip4Interface "vmnet1".toList #v[10, 0, 1, 1],
        ip4Interface "eth0".toList #v[10, 0, 0, 2]] []
  refine ⟨after, created, nets, converts, lives, ?_, ?_⟩
  · obtain ⟨net, isNet, same⟩ := decided (ip4Interface "eth0".toList #v[10, 0, 0, 1]) (by simp)
      ⟨"eth0".toList, .ip4 #v[10, 0, 0, 0], 24⟩ ⟨.ip4 #v[10, 0, 0, 1], 0⟩ (by decide)
      (Network.construct env "eth0".toList [] (.ip4 #v[10, 0, 0, 0]) 24 .unknown) rfl
    refine ⟨net, isNet, ?_⟩
    rw [addresses net isNet, same]
    decide
  · exact decided (ip4Interface "vmnet1".toList #v[10, 0, 1, 1]) (by simp)
      ⟨"vmnet1".toList, .ip4 #v[10, 0, 1, 0], 24⟩ ⟨.ip4 #v[10, 0, 1, 1], 0⟩ (by decide)
      (Network.construct env "vmnet1".toList [] (.ip4 #v[10, 0, 1, 0]) 24 .unknown) rfl

end RtcBase.Networks
