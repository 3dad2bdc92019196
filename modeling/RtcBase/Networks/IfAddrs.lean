import RtcBase.Networks.Manager

/-! `BasicNetworkManager::convert_if_addrs`, which groups the interface addresses that `getifaddrs`
lists into `Network` objects, with the filters in front of it.
-/

namespace RtcBase.Networks

open Library

-----------------------------------------------------------------------------------------
-- What the system lists
-----------------------------------------------------------------------------------------

/-- A `sockaddr` with what the casts to `sockaddr_in` and `sockaddr_in6` read of its memory. The two
addresses do not overlap there.
-/
structure SockAddr where
  saFamily : BitVec 16
  sinAddr : Vector Byte 4
  sin6Addr : Vector Byte 16
  sin6ScopeId : BitVec 32
  deriving DecidableEq, Repr

/-- `AF_INET`. -/
def afInet : BitVec 16 := 2

/-- `AF_INET6`. -/
def afInet6 : BitVec 16 := 10

/-- An `ifaddrs` entry; a pointer that is null is `none`. -/
structure IfAddrs where
  ifaName : Text
  ifaFlags : BitVec 32
  ifaAddr : Option SockAddr
  ifaNetmask : Option SockAddr
  deriving DecidableEq, Repr

/-- `IFF_LOOPBACK`. -/
def iffLoopback : BitVec 32 := 0x8

/-- `IFF_RUNNING`. -/
def iffRunning : BitVec 32 := 0x40

-----------------------------------------------------------------------------------------
-- Conversion of an address
-----------------------------------------------------------------------------------------

/-- `IfAddrsConverter`, with the virtual `convert_native_attributes_to_IP_attributes` that a
platform overrides: the attributes, or `none` where it returns false.
-/
structure IfAddrsConverter where
  convertNativeAttributesToIPAttributes : IfAddrs → Option (BitVec 32)

/-- The class itself, which `create_if_addrs_converter` returns. -/
def createIfAddrsConverter : IfAddrsConverter where
  convertNativeAttributesToIPAttributes _ := some 0

/-- `convert_if_addrs_to_IP_address` of an entry with its address and its mask. Both are read as the
family of the address says.
-/
def IfAddrsConverter.convertIfAddrsToIPAddress (converter : IfAddrsConverter) (interface : IfAddrs)
    (addr netmask : SockAddr)
    : Option (InterfaceAddress × IPAddress) :=
  if addr.saFamily = afInet then some (⟨.ip4 addr.sinAddr, 0⟩, .ip4 netmask.sinAddr)
  else if addr.saFamily = afInet6 then do
    let ipAttributes ← converter.convertNativeAttributesToIPAttributes interface
    some (⟨.ip6 addr.sin6Addr, ipAttributes⟩, .ip6 netmask.sin6Addr)
  else none

/-- `is_ignored_IPv6`. -/
def isIgnoredIPv6 (ip : InterfaceAddress) : Bool :=
  ip.ip.family = .inet6 ∧ (ip.ip.isLinkLocal ∨ ip.ip.isMacBased ∨ ip.isDeprecated)

/-- `match_type_name_with_index_pattern`. -/
def matchTypeNameWithIndexPattern (networkName typeName : Text) : Bool :=
  typeName.isPrefixOf networkName && (networkName.drop typeName.length).all Char.isDigit

/-- `get_adapter_type_from_name`. -/
def getAdapterTypeFromName (networkName : Text) : AdapterType :=
  if matchTypeNameWithIndexPattern networkName "lo".toList then .loopback
  else if matchTypeNameWithIndexPattern networkName "eth".toList then .ethernet
  else if matchTypeNameWithIndexPattern networkName "ipsec".toList
      || matchTypeNameWithIndexPattern networkName "tun".toList
      || matchTypeNameWithIndexPattern networkName "utun".toList
      || matchTypeNameWithIndexPattern networkName "tap".toList then .vpn
  else .unknown

-----------------------------------------------------------------------------------------
-- Grouping
-----------------------------------------------------------------------------------------

/-- The fields of `BasicNetworkManager` that grouping reads. -/
structure BasicNetworkManager where
  ipv6Enabled : Bool := true
  networkIgnoreList : List Text := []
  deriving DecidableEq, Repr

/-- `is_ignored_network`. -/
def BasicNetworkManager.isIgnoredNetwork (manager : BasicNetworkManager) (network : Network) : Bool :=
  if manager.networkIgnoreList.any fun ignoredName => network.name = ignoredName then true
  else if "vmnet".toList.isPrefixOf network.name || "vnic".toList.isPrefixOf network.name
      || "vboxnet".toList.isPrefixOf network.name then true
  else
    match network.prefixIP with
    -- any networks with a 0.x.y.z IP
    | .ip4 address => IPAddress.hostOrder address < 0x01000000
    | _ => false

/-- What is left of an entry that no filter of the loop skips. -/
structure Accepted where
  ip : InterfaceAddress
  mask : IPAddress
  scopeId : Int
  deriving DecidableEq, Repr

/-- The filters of the loop in `convert_if_addrs`, up to the scope id. -/
def BasicNetworkManager.accept (manager : BasicNetworkManager) (converter : IfAddrsConverter)
    (cursor : IfAddrs)
    : Option Accepted := do
  let addr ← cursor.ifaAddr
  let netmask ← cursor.ifaNetmask
  if cursor.ifaFlags &&& iffRunning = 0 then none
  else if addr.saFamily ≠ afInet ∧ addr.saFamily ≠ afInet6 then none
  else if addr.saFamily = afInet6 ∧ !manager.ipv6Enabled then none
  else
    let (ip, mask) ← converter.convertIfAddrsToIPAddress cursor addr netmask
    if addr.saFamily = afInet6 then
      if isIgnoredIPv6 ip then none else some ⟨ip, mask, addr.sin6ScopeId.toInt⟩
    else some ⟨ip, mask, 0⟩

/-- The adapter type of an entry, by its flags or else by its name. -/
def IfAddrs.adapterType (cursor : IfAddrs) : AdapterType :=
  if cursor.ifaFlags &&& iffLoopback ≠ 0 then .loopback else getAdapterTypeFromName cursor.ifaName

/-- `Network::add_IP`. -/
def Network.addIP (network : Network) (ip : InterfaceAddress) : Network :=
  { network with ips := network.ips ++ [ip] }

/-- An existing network takes an address over, and an adapter type that is known. -/
def Network.takeAddress (network : Network) (ip : InterfaceAddress) (adapterType : AdapterType)
    : Network :=
  let network := network.addIP ip
  if adapterType ≠ .unknown then { network with type := adapterType } else network

/-- The state of the loop in `convert_if_addrs`: the heap, the map and the list that grows. -/
structure Conversion where
  heap : Heap Network
  currentNetworks : Std.ExtTreeMap Text Nat
  networks : List Nat

/-- The end of the loop's body for a key that the map does not hold. The `unique_ptr` deletes a
network that is not put on the list.
-/
def Conversion.addNetwork (state : Conversion) (includeIgnored : Bool) (key : Text)
    (network : Network)
    : Option Conversion :=
  let o := state.heap.next
  let heap := state.heap.create network
  if includeIgnored || !network.ignored then
    some
      { heap := heap
        currentNetworks := state.currentNetworks.insert key o
        networks := state.networks ++ [o] }
  else do
    let heap ← heap.delete o
    some { state with heap := heap }

/-- The end of the loop's body for a key that the map holds. -/
def Conversion.addAddress (state : Conversion) (existingNetwork : Nat) (ip : InterfaceAddress)
    (adapterType : AdapterType)
    : Option Conversion := do
  let heap ← state.heap.modify existingNetwork fun network => network.takeAddress ip adapterType
  some { state with heap := heap }

section Loop

variable (env : Environment) (host : ByteBuffer.Host) (manager : BasicNetworkManager)
  (converter : IfAddrsConverter) (includeIgnored : Bool)

/-- The network that the loop makes of the first address of a key. -/
def newNetwork (cursor : IfAddrs) (accepted : Accepted) (prefixIP : IPAddress) (prefixLength : Int)
    : Network :=
  let network :=
    Network.construct env cursor.ifaName cursor.ifaName prefixIP prefixLength cursor.adapterType
  let network := { network with scopeId := accepted.scopeId }
  let network := network.addIP accepted.ip
  { network with ignored := manager.isIgnoredNetwork network }

/-- The body of the loop in `convert_if_addrs`. -/
def convertEntry (state : Conversion) (cursor : IfAddrs) : Option Conversion :=
  match manager.accept converter cursor with
  | none => some state
  | some accepted =>
      let prefixLength := IPAddress.countIPMaskBits host accepted.mask
      let prefixIP := IPAddress.truncateIP host accepted.ip.ip prefixLength
      let key := makeNetworkKey env cursor.ifaName prefixIP prefixLength
      match state.currentNetworks[key]? with
      | none =>
          state.addNetwork includeIgnored key
            (newNetwork env manager cursor accepted prefixIP prefixLength)
      | some existingNetwork => state.addAddress existingNetwork accepted.ip cursor.adapterType

/-- `BasicNetworkManager::convert_if_addrs`, with the list that it appends to; `none` stands for the
use of an object that is not live.
-/
def convertIfAddrs (heap : Heap Network) (interfaces : List IfAddrs) (networks : List Nat)
    : Option (Heap Network × List Nat) := do
  let state ← interfaces.foldlM (convertEntry env host manager converter includeIgnored)
    ⟨heap, ∅, networks⟩
  return (state.heap, state.networks)

end Loop

end RtcBase.Networks
