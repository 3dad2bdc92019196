import RtcBase.ByteBuffer.ByteOrder

/-! `IPAddress` and `InterfaceAddress`, with the address classes that network sorting uses. -/

namespace RtcBase.Networks

open Library

/-- A `std::string`, one `Char` for each of its characters. -/
abbrev Text := List Char

/-- The address families that an `IPAddress` can be constructed with. -/
inductive AddressFamily where
  | unspec
  | inet
  | inet6
  deriving DecidableEq, Repr

/-- An IP address with its bytes in network order. -/
inductive IPAddress where
  | unspec
  | ip4 (address : Vector Byte 4)
  | ip6 (address : Vector Byte 16)
  deriving DecidableEq, Repr

namespace IPAddress

def family : IPAddress → AddressFamily
  | .unspec => .unspec
  | .ip4 _ => .inet
  | .ip6 _ => .inet6

/-- `IPAddress::ipv6_address`: the sixteen bytes of the union, zero where the constructor cleared
them.
-/
def ipv6Address : IPAddress → List Byte
  | .unspec => List.replicate 16 0
  | .ip4 address => address.toList ++ List.replicate 12 0
  | .ip6 address => address.toList

/-- `network_to_host32` of `s_addr`: the four bytes as a number. -/
def hostOrder (address : Vector Byte 4) : Word 4 := ByteBuffer.getBe 4 address.toList

/-- The `uint32_t` at index `i` of some memory, as the host reads it. -/
def wordAt {n : Nat} (host : ByteBuffer.Host) (memory : Vector Byte n) (i : Nat) : Word 4 :=
  (host.layout 4).gather (window memory.toList (4 * i) 4)

/-- The memory after the host stored a `uint32_t` at index `i`. -/
def setWord {n : Nat} (host : ByteBuffer.Host) (memory : Vector Byte n) (i : Nat) (v : Word 4)
    : Vector Byte n :=
  .ofFn fun k =>
    if k / 4 = i then ((host.layout 4).spread v).getD (k % 4) 0 else memory[k]

/-- An `in_addr` with the given `s_addr`. -/
def inAddr (host : ByteBuffer.Host) (sAddr : Word 4) : Vector Byte 4 :=
  setWord host (.replicate 4 0) 0 sAddr

/-- The constructor from a number, `ip_in_host_byte_order`. -/
def ofHostOrder (host : ByteBuffer.Host) (ip : Word 4) : IPAddress :=
  .ip4 (inAddr host (ByteBuffer.hostToNetwork32 host ip))

/-- `IPAddress::operator<`. -/
def less : IPAddress → IPAddress → Bool
  | .unspec, .unspec => false
  | .unspec, _ => true
  | .ip4 _, .ip6 _ => true
  | .ip4 a, .ip4 b => hostOrder a < hostOrder b
  | .ip6 a, .ip6 b => a.toList < b.toList
  | _, _ => false

/-- `IPAddress::operator==`, with `memcmp` of the bytes. -/
def equal : IPAddress → IPAddress → Bool
  | .unspec, .unspec => true
  | .ip4 a, .ip4 b => a.toList = b.toList
  | .ip6 a, .ip6 b => a.toList = b.toList
  | _, _ => false

/-- `IPAddress::operator>`. -/
def greater (ip other : IPAddress) : Bool := !ip.equal other && !ip.less other

/-- `IPAddress::to_string`, over the system's `inet_ntop`. -/
def toText (inetNtop : AddressFamily → List Byte → Option Text) : IPAddress → Text
  | .unspec => []
  | .ip4 address => (inetNtop .inet address.toList).getD []
  | .ip6 address => (inetNtop .inet6 address.toList).getD []

/-- `IP_from_string`, over the system's `inet_pton` for the two families, with the address that it
stores; `none` is a text that it refuses.
-/
def ofText (inetPton4 : Text → Option (Vector Byte 4)) (inetPton6 : Text → Option (Vector Byte 16))
    (str : Text)
    : Bool × IPAddress :=
  match inetPton4 str with
  | some addr => (true, .ip4 addr)
  | none =>
      match inetPton6 str with
      | some addr6 => (true, .ip6 addr6)
      | none => (false, .unspec)

def isUnspec (ip : IPAddress) : Bool := ip.family = .unspec

/-- `IP_is_any`: `INADDR_ANY`, `in6addr_any` or the prefix of the mapped IPv4 addresses. -/
def isAny : IPAddress → Bool
  | .ip4 address => equal (.ip4 address) (.ip4 (.replicate 4 0))
  | .ip6 address =>
      equal (.ip6 address) (.ip6 (.replicate 16 0))
        || equal (.ip6 address) (.ip6 #v[0, 0, 0, 0, 0, 0, 0, 0, 0, 0, 0xFF, 0xFF, 0, 0, 0, 0])
  | .unspec => false

/-- `IP_is_loopback`: `INADDR_LOOPBACK` or `in6addr_loopback`. -/
def isLoopback : IPAddress → Bool
  | .unspec => false
  | .ip4 address => address.toList = [127, 0, 0, 1]
  | .ip6 address => address.toList = List.replicate 15 0 ++ [1]

/-- `IP_is_helper`: whole bytes of a prefix, with its length in bits. -/
def isHelper (ip : IPAddress) (tomatch : List Byte) (length : Nat) : Bool :=
  ip.ipv6Address.take (length / 8) = tomatch.take (length / 8)

def is6bone (ip : IPAddress) : Bool := ip.isHelper [0x3f, 0xfe] 16

def is6to4 (ip : IPAddress) : Bool := ip.isHelper [0x20, 0x02] 16

def isTeredo (ip : IPAddress) : Bool := ip.isHelper [0x20, 0x01, 0x00, 0x00] 32

def isV4Compatibility (ip : IPAddress) : Bool := ip.isHelper (List.replicate 16 0) 96

def isV4Mapped (ip : IPAddress) : Bool :=
  ip.isHelper (List.replicate 10 0 ++ [0xFF, 0xFF]) 96

def isLinkLocal (ip : IPAddress) : Bool :=
  ip.ipv6Address.getD 0 0 = 0xFE ∧ ip.ipv6Address.getD 1 0 = 0x80

def isMacBased (ip : IPAddress) : Bool :=
  ip.ipv6Address.getD 8 0 &&& 0x02 ≠ 0 ∧ ip.ipv6Address.getD 11 0 = 0xFF
    ∧ ip.ipv6Address.getD 12 0 = 0xFE

def isSiteLocal (ip : IPAddress) : Bool :=
  ip.ipv6Address.getD 0 0 = 0xFE ∧ ip.ipv6Address.getD 1 0 &&& 0xC0 = 0xC0

def isULA (ip : IPAddress) : Bool := ip.ipv6Address.getD 0 0 &&& 0xFE = 0xFC

/-- `IP_address_precedence`. -/
def precedence (ip : IPAddress) : Int :=
  match ip.family with
  | .inet => 30
  | .inet6 =>
      if ip.isLoopback then 60
      else if ip.isULA then 50
      else if ip.isV4Mapped then 30
      else if ip.is6to4 then 20
      else if ip.isTeredo then 10
      else if ip.isV4Compatibility || ip.isSiteLocal || ip.is6bone then 1
      else 40
  | .unspec => 0

/-- One iteration of the loop in `truncate_IP` over the words of an IPv6 address. -/
def truncateWord (host : ByteBuffer.Host) (position : Nat) (innerMask : Word 4)
    (v6addr : Vector Byte 16) (i : Nat)
    : Vector Byte 16 :=
  if i = position then
    let hostOrderInner := ByteBuffer.networkToHost32 host (wordAt host v6addr i)
    setWord host v6addr i (ByteBuffer.hostToNetwork32 host (hostOrderInner &&& innerMask))
  else if i > position then setWord host v6addr i 0
  else v6addr

/-- `truncate_IP`. The mask of the inner word is a 64-bit number, shifted by up to 32 bits and then
cut down to a `uint32_t`.
-/
def truncateIP (host : ByteBuffer.Host) (ip : IPAddress) (length : Int) : IPAddress :=
  if length < 0 then .unspec
  else
    let length := length.toNat
    match ip with
    | .ip4 address =>
        if length > 31 then ip
        else if length = 0 then ofHostOrder host 0
        else
          let mask : Word 4 := 0xFFFFFFFF#32 <<< (32 - length)
          let hostOrderIp := ByteBuffer.networkToHost32 host (wordAt host address 0)
          .ip4 (inAddr host (ByteBuffer.hostToNetwork32 host (hostOrderIp &&& mask)))
    | .ip6 address =>
        if length > 127 then ip
        else if length = 0 then .ip6 (.replicate 16 0)
        else
          let position := length / 32
          let innerLength := 32 - (length - position * 32)
          let innerMask : Word 4 := (0xFFFFFFFF#64 <<< innerLength).setWidth 32
          .ip6 ((List.range 4).foldl (truncateWord host position innerMask) address)
    | .unspec => .unspec

/-- The bit hack of `count_IP_mask_bits`, which counts the trailing zeroes of a word. -/
def trailingZeroes (wordToCount : Word 4) : Nat :=
  let wordToCount := wordToCount &&& (~~~wordToCount + 1)
  let zeroes := 32
  let zeroes := if wordToCount ≠ 0 then zeroes - 1 else zeroes
  let zeroes := if wordToCount &&& 0x0000FFFF ≠ 0 then zeroes - 16 else zeroes
  let zeroes := if wordToCount &&& 0x00FF00FF ≠ 0 then zeroes - 8 else zeroes
  let zeroes := if wordToCount &&& 0x0F0F0F0F ≠ 0 then zeroes - 4 else zeroes
  let zeroes := if wordToCount &&& 0x33333333 ≠ 0 then zeroes - 2 else zeroes
  if wordToCount &&& 0x55555555 ≠ 0 then zeroes - 1 else zeroes

/-- `count_IP_mask_bits`. The loop over the words of an IPv6 mask stops at the first one that is not
all ones.
-/
def countIPMaskBits (host : ByteBuffer.Host) (mask : IPAddress) : Int :=
  let count (bits : Nat) (wordToCount : Word 4) : Nat :=
    if wordToCount = 0 then bits else bits + (32 - trailingZeroes wordToCount)
  match mask with
  | .ip4 address => count 0 (ByteBuffer.networkToHost32 host (wordAt host address 0))
  | .ip6 address =>
      let i := ((List.range 4).find? fun i => wordAt host address i ≠ 0xFFFFFFFF).getD 4
      let wordToCount :=
        if i < 4 then ByteBuffer.networkToHost32 host (wordAt host address i) else 0
      count (i * 32) wordToCount
  | .unspec => 0

end IPAddress

/-- `InterfaceAddress`: an address with its IPv6 flags, an `int`. -/
structure InterfaceAddress where
  ip : IPAddress
  ipv6Flags : BitVec 32
  deriving DecidableEq, Repr

namespace InterfaceAddress

/-- The default constructor. -/
def unspec : InterfaceAddress := ⟨.unspec, 0⟩

/-- `IPV6_ADDRESS_FLAG_TEMPORARY` is set. -/
def isTemporary (address : InterfaceAddress) : Bool := address.ipv6Flags &&& 1 ≠ 0

/-- `IPV6_ADDRESS_FLAG_DEPRECATED` is set. -/
def isDeprecated (address : InterfaceAddress) : Bool := address.ipv6Flags &&& 2 ≠ 0

end InterfaceAddress

end RtcBase.Networks
