import Mathlib.Data.List.Sort
import RtcBase.Library.Heap
import RtcBase.Networks.IPAddress

/-! `Network` objects and `NetworkManagerBase::merge_network_list`. The objects live on a heap and
are handled by reference; `none` stands for undefined behaviour, the use of an object that is not
live or of the first element of an empty vector.
-/

namespace RtcBase.Networks

open Library

/-- `AdapterType`. -/
inductive AdapterType where
  | unknown
  | ethernet
  | wifi
  | cellular
  | vpn
  | loopback
  | any
  deriving DecidableEq, Repr

/-- The value of the enumerator. -/
def AdapterType.value : AdapterType → Nat
  | .unknown => 0
  | .ethernet => 1
  | .wifi => 2
  | .cellular => 4
  | .vpn => 8
  | .loopback => 16
  | .any => 32

/-- What the manager takes from outside: the system's `inet_ntop`, and a `std::sort` that is only
assumed to permute.
-/
structure Environment where
  inetNtop : AddressFamily → List Byte → Option Text
  sort : {α : Type} → (α → α → Bool) → List α → List α
  sort_perm : ∀ {α : Type} (less : α → α → Bool) (items : List α), (sort less items).Perm items

/-- The fields of `Network`. -/
structure Network where
  name : Text
  description : Text
  prefixIP : IPAddress
  prefixLength : Int
  key : Text
  ips : List InterfaceAddress
  scopeId : Int
  ignored : Bool
  type : AdapterType
  preference : Int
  active : Bool
  id : BitVec 16
  deriving DecidableEq, Repr

/-- The decimal text of an `int` on a stream. -/
def intText (n : Int) : Text :=
  if n < 0 then '-' :: Nat.toDigits 10 n.natAbs else Nat.toDigits 10 n.natAbs

/-- `make_network_key`. -/
def makeNetworkKey (env : Environment) (name : Text) (prefixIP : IPAddress) (prefixLength : Int)
    : Text :=
  name ++ ['%'] ++ prefixIP.toText env.inetNtop ++ ['/'] ++ intText prefixLength

namespace Network

/-- The `Network` constructor. -/
def construct (env : Environment) (name description : Text) (prefixIP : IPAddress)
    (prefixLength : Int) (type : AdapterType)
    : Network :=
  { name, description, prefixIP, prefixLength, type
    key := makeNetworkKey env name prefixIP prefixLength
    ips := []
    scopeId := 0
    ignored := false
    preference := 0
    active := true
    id := 0 }

/-- The key under which the manager files a network, computed from its name and prefix. -/
def mapKey (env : Environment) (network : Network) : Text :=
  makeNetworkKey env network.name network.prefixIP network.prefixLength

/-- `Network::set_IPs`, with the returned flag. -/
def setIPs (network : Network) (ips : List InterfaceAddress) (changed : Bool) : Bool × Network :=
  let changed := changed || ips.length != network.ips.length
  let changed := changed || ips.any fun ip => !network.ips.contains ip
  (changed, { network with ips := ips })

/-- The loop of `get_best_IP` from the address at hand on, with its two candidates. -/
def selectIP (selectedIP ulaIP : InterfaceAddress)
    : List InterfaceAddress → InterfaceAddress × InterfaceAddress
  | [] => (selectedIP, ulaIP)
  | address :: rest =>
      if address.isDeprecated then selectIP selectedIP ulaIP rest
      else if address.ip.isULA then selectIP selectedIP address rest
      else if address.isTemporary then (address, ulaIP)
      else selectIP address ulaIP rest

/-- `Network::get_best_IP`. -/
def getBestIP (network : Network) : IPAddress :=
  match network.ips with
  | [] => .unspec
  | first :: _ =>
      if network.prefixIP.family = .inet then first.ip
      else
        let (selectedIP, ulaIP) := selectIP .unspec .unspec network.ips
        if selectedIP.ip.isUnspec && !ulaIP.ip.isUnspec then ulaIP.ip else selectedIP.ip

/-- `compare_networks`. -/
def compareNetworks (a b : Network) : Bool :=
  if a.prefixLength = b.prefixLength ∧ a.name = b.name then a.prefixIP.less b.prefixIP
  else a.name < b.name

/-- `sort_networks`. -/
def sortNetworks (a b : Network) : Bool :=
  if a.type ≠ b.type then a.type.value < b.type.value
  else if a.getBestIP.precedence ≠ b.getBestIP.precedence then
    a.getBestIP.precedence > b.getBestIP.precedence
  else a.key > b.key

end Network

/-- `AddressList`: the network that stands for a key and the addresses gathered for it. -/
structure AddressList where
  net : Nat
  ips : List InterfaceAddress
  deriving DecidableEq, Repr

/-- `NetworkManager::Stats`. -/
structure Stats where
  ipv4NetworkCount : Int := 0
  ipv6NetworkCount : Int := 0
  deriving DecidableEq, Repr

/-- The fields of `NetworkManagerBase` that merging uses, with the heap of `Network` objects. -/
structure NetworkManagerBase where
  heap : Heap Network
  networks : List Nat
  networksMap : Std.ExtTreeMap Text Nat
  nextAvailableNetworkId : BitVec 16

/-- The constructor, before any network is known. -/
def NetworkManagerBase.construct : NetworkManagerBase where
  heap := .empty
  networks := []
  networksMap := ∅
  nextAvailableNetworkId := 1

/-- `std::sort` of references by a comparison of the objects. -/
def sortObjects (env : Environment) (heap : Heap Network) (less : Network → Network → Bool)
    (list : List Nat)
    : Option (List Nat) := do
  let items ← list.mapM fun o => (heap.objects o).map fun network => (o, network)
  return (env.sort (fun a b => less a.2 b.2) items).map Prod.fst

/-- Count a network by the family of its first address. -/
def Stats.count (stats : Stats) (first : InterfaceAddress) : Stats :=
  match first.ip.family with
  | .inet => { stats with ipv4NetworkCount := stats.ipv4NetworkCount + 1 }
  | .inet6 => { stats with ipv6NetworkCount := stats.ipv6NetworkCount + 1 }
  | .unspec => stats

/-- The state of the first loop of `merge_network_list`. -/
structure Consolidation where
  heap : Heap Network
  consolidated : Std.ExtTreeMap Text AddressList
  stats : Stats

/-- One round of the first loop: gather the addresses of a network under its key, and delete the
network unless it is the first one with the key.
-/
def consolidate (env : Environment) (state : Consolidation) (o : Nat) : Option Consolidation := do
  let network ← state.heap.objects o
  let key := network.mapKey env
  match state.consolidated[key]? with
  | none =>
      let current : AddressList := ⟨o, network.ips⟩
      let first ← current.ips.head?
      some
        { state with
          consolidated := state.consolidated.insert key current
          stats := state.stats.count first }
  | some current =>
      let heap ← state.heap.delete o
      some
        { state with
          heap := heap
          consolidated :=
            state.consolidated.insert key { current with ips := current.ips ++ network.ips } }

/-- The state of the second loop of `merge_network_list`. -/
structure Merging where
  heap : Heap Network
  networksMap : Std.ExtTreeMap Text Nat
  nextAvailableNetworkId : BitVec 16
  mergedList : List Nat
  changed : Bool

/-- The new network has an adapter type to take over. -/
def newType (existingNet net : Network) : Bool :=
  net.type ≠ .unknown ∧ net.type ≠ existingNet.type

/-- Take the adapter type of the new network over. -/
def takeType (heap : Heap Network) (existing : Nat) (existingNet net : Network)
    : Option (Heap Network) :=
  if newType existingNet net then
    heap.modify existing fun network => { network with type := net.type }
  else some heap

/-- Delete the new network unless it is the one that the map holds. -/
def deleteOther (heap : Heap Network) (existing net : Nat) : Option (Heap Network) :=
  if existing ≠ net then heap.delete net else some heap

/-- One round of the second loop: adopt the network of a new key, or give the addresses to the
network that the map holds and delete the new one.
-/
def mergeEntry (state : Merging) (entry : Text × AddressList) : Option Merging :=
  match state.networksMap[entry.1]? with
  | none => do
      let heap ← state.heap.modify entry.2.net fun network =>
        ({ network with id := state.nextAvailableNetworkId }.setIPs entry.2.ips true).2
      some
        { heap := heap
          networksMap := state.networksMap.insert entry.1 entry.2.net
          nextAvailableNetworkId := state.nextAvailableNetworkId + 1
          mergedList := state.mergedList ++ [entry.2.net]
          changed := true }
  | some existing => do
      let existingNet ← state.heap.objects existing
      let heap ← state.heap.modify existing fun network => (network.setIPs entry.2.ips true).2
      let net ← heap.objects entry.2.net
      let heap ← takeType heap existing existingNet net
      let heap ← deleteOther heap existing entry.2.net
      some
        { state with
          heap := heap
          mergedList := state.mergedList ++ [existing]
          changed :=
            (existingNet.setIPs entry.2.ips state.changed).1 || newType existingNet net
              || !existingNet.active }

/-- Reset the active state of a network of the map. -/
def resetActive (networks : List Nat) (heap : Heap Network) (entry : Text × Nat)
    : Option (Heap Network) :=
  heap.modify entry.2 fun network => { network with active := networks.contains entry.2 }

/-- Assign preferences in decreasing order, until they reach zero. -/
def assignPreferences : Heap Network → Nat → List Nat → Option (Heap Network)
  | heap, _, [] => some heap
  | heap, pref, o :: rest => do
      let heap ← heap.modify o fun network => { network with preference := pref }
      if pref > 0 then assignPreferences heap (pref - 1) rest else some heap

/-- `k_highest_network_preference`. -/
def highestNetworkPreference : Nat := 127

/-- What `merge_network_list` leaves behind. -/
structure MergeResult where
  manager : NetworkManagerBase
  changed : Bool
  stats : Stats

/-- The end of `merge_network_list`: a list that changed is taken over, and active states, order
and preferences are reset.
-/
def applyChanges (env : Environment) (manager : NetworkManagerBase) (mergedList : List Nat)
    (changed : Bool)
    : Option NetworkManagerBase :=
  if changed then do
    let heap ← manager.networksMap.toList.foldlM (resetActive mergedList) manager.heap
    let networks ← sortObjects env heap Network.sortNetworks mergedList
    let heap ← assignPreferences heap highestNetworkPreference networks
    some { manager with heap := heap, networks := networks }
  else some manager

/-- `NetworkManagerBase::merge_network_list`. -/
def mergeNetworkList (env : Environment) (manager : NetworkManagerBase) (newNetworks : List Nat)
    (stats : Stats)
    : Option MergeResult := do
  let list ← sortObjects env manager.heap Network.compareNetworks newNetworks
  let first ← list.foldlM (consolidate env) ⟨manager.heap, ∅, stats⟩
  let merging ← first.consolidated.toList.foldlM mergeEntry
    ⟨first.heap, manager.networksMap, manager.nextAvailableNetworkId, [], false⟩
  let changed := merging.changed || merging.mergedList.length != manager.networks.length
  let merged : NetworkManagerBase :=
    { manager with
      heap := merging.heap
      networksMap := merging.networksMap
      nextAvailableNetworkId := merging.nextAvailableNetworkId }
  let manager ← applyChanges env merged merging.mergedList changed
  return ⟨manager, changed, first.stats⟩

end RtcBase.Networks
