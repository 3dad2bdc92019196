import RtcBase.Library.Fields
import RtcBase.Networks.SocketText

/-! The `sockaddr_storage` that a `SocketAddress` is handed to the system in and read back from, in
the layout of Linux: the family, the port in network order, the address, and for IPv6 the scope.
-/

namespace RtcBase.Networks

open Library

/-- `AF_UNSPEC`, `AF_INET` and `AF_INET6`. -/
def AddressFamily.number : AddressFamily → Word 2
  | .unspec => 0
  | .inet => 2
  | .inet6 => 10

/-- `sizeof(sockaddr_storage)`. -/
def storageSize : Nat := 128

namespace SocketAddress

/-- `to_sockaddr_storage_helper`: the memory that it fills and the size of it that is in use. -/
def toSockaddrStorageHelper (host : ByteBuffer.Host) (ip : IPAddress) (port : BitVec 16)
    (scopeId : Int)
    : List Byte × Nat :=
  let addr : List Byte := List.replicate storageSize 0
  let addr := setField addr 0 ((host.layout 2).spread ip.family.number)
  match ip with
  | .ip6 address =>
      let addr := setField addr 8 address.toList
      let addr := setField addr 2 ((host.layout 2).spread (ByteBuffer.hostToNetwork16 host port))
      let addr := setField addr 24 ((host.layout 4).spread (BitVec.ofInt 32 scopeId))
      (addr, 28)
  | .ip4 address =>
      let addr := setField addr 4 address.toList
      let addr := setField addr 2 ((host.layout 2).spread (ByteBuffer.hostToNetwork16 host port))
      (addr, 16)
  | .unspec => (addr, 0)

/-- `SocketAddress::to_sockaddr_storage`. -/
def toSockaddrStorage (host : ByteBuffer.Host) (address : SocketAddress) : List Byte × Nat :=
  toSockaddrStorageHelper host address.ip address.port address.scopeId

/-- The bytes of the storage that the system is given. -/
def sockaddr (host : ByteBuffer.Host) (address : SocketAddress) : List Byte :=
  (address.toSockaddrStorage host).1.take (address.toSockaddrStorage host).2

/-- The bytes of an address that stands in a field. -/
def addressAt (n : Nat) (addr : List Byte) (offset : Nat) : Vector Byte n :=
  .ofFn fun k => (window addr offset n).getD k 0

/-- The port of a `sockaddr_in` or a `sockaddr_in6`, as the host reads it. -/
def portAt (host : ByteBuffer.Host) (addr : List Byte) : Word 2 :=
  ByteBuffer.networkToHost16 host ((host.layout 2).gather (window addr 2 2))

/-- `socket_address_from_sockaddr_storage` into a given address, which it leaves alone if the family
is unknown.
-/
def ofSockaddrStorage (host : ByteBuffer.Host) (memory : BitVec 16) (addr : List Byte)
    (out : SocketAddress)
    : Bool × SocketAddress :=
  let family := (host.layout 2).gather (window addr 0 2)
  if family = AddressFamily.inet.number then
    (true, construct memory (.ip4 (addressAt 4 addr 4)) (portAt host addr).toNat)
  else if family = AddressFamily.inet6.number then
    let scopeId := (host.layout 4).gather (window addr 24 4)
    (true,
      { construct memory (.ip6 (addressAt 16 addr 8)) (portAt host addr).toNat with
        scopeId := scopeId.toInt })
  else (false, out)

/-- What the system keeps of an address: no host name, and a scope for IPv6 only. -/
def numeric (address : SocketAddress) : SocketAddress where
  hostname := []
  ip := address.ip
  port := address.port
  scopeId := if address.ip.family = .inet6 then address.scopeId else 0
  literal := false

section RoundTrip

variable {host : ByteBuffer.Host} {addr : List Byte}

/-- The fields of a `sockaddr_storage` that a family uses hold an address. -/
structure Holds (host : ByteBuffer.Host) (addr : List Byte) (address : SocketAddress) : Prop where
  family : window addr 0 2 = (host.layout 2).spread address.ip.family.number
  port : window addr 2 2 = ByteBuffer.setBe 2 address.port
  ip4 : ∀ bytes, address.ip = .ip4 bytes → window addr 4 4 = bytes.toList
  ip6 : ∀ bytes, address.ip = .ip6 bytes → window addr 8 16 = bytes.toList
  scope
    : address.ip.family = .inet6
      → window addr 24 4 = (host.layout 4).spread (BitVec.ofInt 32 address.scopeId)

theorem addressAt_eq {n offset : Nat} {bytes : Vector Byte n}
    (field : window addr offset n = bytes.toList)
    : addressAt n addr offset = bytes := by
  apply Vector.ext
  intro k inside
  simp [addressAt, field]

/-- Reading the fields of an address gives it back. -/
theorem Holds.read {address : SocketAddress} (holds : Holds host addr address)
    (specified : address.ip ≠ .unspec)
    (scope : -2 ^ 31 ≤ address.scopeId ∧ address.scopeId < 2 ^ 31) (memory : BitVec 16)
    (out : SocketAddress)
    : ofSockaddrStorage host memory addr out = (true, address.numeric) := by
  have family : (host.layout 2).gather (window addr 0 2) = address.ip.family.number := by
    rw [holds.family, Layout.gather_spread]
  have port : portAt host addr = address.port := by
    rw [portAt, ByteBuffer.networkToHost16, ByteBuffer.networkToHost,
      (host.layout 2).spread_gather (by rw [holds.port]; simp [ByteBuffer.setBe]), holds.port]
    exact Layout.gather_spread _ _
  have inRange : (address.port.toNat : Int) ≤ 65535 := by
    have small := address.port.isLt
    omega
  have built (ip : IPAddress)
      : construct memory ip (portAt host addr).toNat = ⟨[], ip, address.port, 0, false⟩ := by
    rw [port, construct_eq memory ip (Int.natCast_nonneg _) inRange]
    simp
  cases ip : address.ip with
  | unspec => exact absurd ip specified
  | ip4 bytes =>
      simp only [ofSockaddrStorage, family, ip, IPAddress.family, built,
        addressAt_eq (holds.ip4 bytes ip), numeric]
      simp
  | ip6 bytes =>
      have scopeId
          : ((host.layout 4).gather (window addr 24 4)).toInt = address.scopeId := by
        rw [holds.scope (by rw [ip]; rfl), Layout.gather_spread]
        exact BitVec.toInt_ofInt_eq_self (by omega) scope.1 scope.2
      have other : AddressFamily.inet6.number ≠ AddressFamily.inet.number := by decide
      simp only [ofSockaddrStorage, family, ip, IPAddress.family, built,
        addressAt_eq (holds.ip6 bytes ip), numeric, scopeId, if_neg other, if_true]

/-- The fields of a `sockaddr_in` after they were assigned in the order of the source. -/
theorem sockaddrIn_fields {family port address : List Byte} (size : addr.length = storageSize)
    (familySize : family.length = 2) (portSize : port.length = 2) (addressSize : address.length = 4)
    : (setField (setField (setField addr 0 family) 4 address) 2 port).length = storageSize
      ∧ window (setField (setField (setField addr 0 family) 4 address) 2 port) 0 2 = family
      ∧ window (setField (setField (setField addr 0 family) 4 address) 2 port) 2 2 = port
      ∧ window (setField (setField (setField addr 0 family) 4 address) 2 port) 4 4 = address := by
  rw [storageSize] at size ⊢
  have one : (setField addr 0 family).length = 128 := by rw [length_setField (by omega), size]
  have two : (setField (setField addr 0 family) 4 address).length = 128 := by
    rw [length_setField (by omega), one]
  refine ⟨by rw [length_setField (by omega), two], ?_, window_setField (by omega) portSize, ?_⟩
  · rw [window_setField_before (by omega) (by omega), window_setField_before (by omega) (by omega),
      window_setField (by omega) familySize]
  · rw [window_setField_after (by omega) (by omega), window_setField (by omega) addressSize]

/-- The fields of a `sockaddr_in6` after they were assigned in the order of the source. -/
theorem sockaddrIn6_fields {family port address scope : List Byte}
    (size : addr.length = storageSize) (familySize : family.length = 2) (portSize : port.length = 2)
    (addressSize : address.length = 16) (scopeSize : scope.length = 4)
    : let after :=
        setField (setField (setField (setField addr 0 family) 8 address) 2 port) 24 scope
      after.length = storageSize
      ∧ window after 0 2 = family
      ∧ window after 2 2 = port
      ∧ window after 8 16 = address
      ∧ window after 24 4 = scope := by
  rw [storageSize] at size ⊢
  have one : (setField addr 0 family).length = 128 := by rw [length_setField (by omega), size]
  have two : (setField (setField addr 0 family) 8 address).length = 128 := by
    rw [length_setField (by omega), one]
  have three : (setField (setField (setField addr 0 family) 8 address) 2 port).length = 128 := by
    rw [length_setField (by omega), two]
  refine ⟨by rw [length_setField (by omega), three], ?_, ?_, ?_,
    window_setField (by omega) scopeSize⟩
  · rw [window_setField_before (by omega) (by omega), window_setField_before (by omega) (by omega),
      window_setField_before (by omega) (by omega), window_setField (by omega) familySize]
  · rw [window_setField_before (by omega) (by omega), window_setField (by omega) portSize]
  · rw [window_setField_before (by omega) (by omega), window_setField_after (by omega) (by omega),
      window_setField (by omega) addressSize]

/-- The fields that were written, with any bytes behind the size in use, by cases on the family. -/
theorem sockaddr_holds (host : ByteBuffer.Host) {address : SocketAddress}
    (specified : address.ip ≠ .unspec) (rest : List Byte)
    : Holds host (address.sockaddr host ++ rest) address := by
  obtain ⟨zeros, cleared⟩ : ∃ zeros : List Byte, List.replicate storageSize 0 = zeros := ⟨_, rfl⟩
  have size : zeros.length = storageSize := by rw [← cleared, List.length_replicate]
  have port
      : (host.layout 2).spread (ByteBuffer.hostToNetwork16 host address.port)
        = ByteBuffer.setBe 2 address.port :=
    ByteBuffer.spread_hostToNetwork host 2 address.port
  have portSize : (ByteBuffer.setBe 2 address.port).length = 2 := Layout.length_spread _ _
  cases ip : address.ip with
  | unspec => exact absurd ip specified
  | ip4 bytes =>
      obtain ⟨whole, atFamily, atPort, atAddress⟩ :=
        sockaddrIn_fields size ((host.layout 2).length_spread AddressFamily.inet.number) portSize
          bytes.length_toList
      simp only [sockaddr, toSockaddrStorage, toSockaddrStorageHelper, ip, cleared, port,
        IPAddress.family]
      have fits : 16 ≤ storageSize := by decide
      refine ⟨?_, ?_, ?_, ?_, ?_⟩
      · rw [window_take_append (whole ▸ fits) (by omega), atFamily, ip]
        rfl
      · rw [window_take_append (whole ▸ fits) (by omega), atPort]
      · intro other same
        rw [window_take_append (whole ▸ fits) (by omega), atAddress,
          IPAddress.ip4.inj (ip.symm.trans same)]
      · intro other same
        cases ip.symm.trans same
      · intro family
        rw [ip] at family
        cases family
  | ip6 bytes =>
      obtain ⟨whole, atFamily, atPort, atAddress, atScope⟩ :=
        sockaddrIn6_fields size ((host.layout 2).length_spread AddressFamily.inet6.number) portSize
          bytes.length_toList ((host.layout 4).length_spread (BitVec.ofInt 32 address.scopeId))
      simp only [sockaddr, toSockaddrStorage, toSockaddrStorageHelper, ip, cleared, port,
        IPAddress.family]
      have fits : 28 ≤ storageSize := by decide
      refine ⟨?_, ?_, ?_, ?_, ?_⟩
      · rw [window_take_append (whole ▸ fits) (by omega), atFamily, ip]
        rfl
      · rw [window_take_append (whole ▸ fits) (by omega), atPort]
      · intro other same
        cases ip.symm.trans same
      · intro other same
        rw [window_take_append (whole ▸ fits) (by omega), atAddress,
          IPAddress.ip6.inj (ip.symm.trans same)]
      · intro _
        rw [window_take_append (whole ▸ fits) (by omega), atScope]

/-- Fields hold the IP address and the port of one address only, by cases on the two families. -/
theorem Holds.unique {first second : SocketAddress} (holdsFirst : Holds host addr first)
    (holdsSecond : Holds host addr second)
    : first.ip = second.ip ∧ first.port = second.port := by
  have port : first.port = second.port := by
    have same := holdsFirst.port.symm.trans holdsSecond.port
    rw [← (Layout.bigEndian 2).gather_spread first.port, ← (Layout.bigEndian 2).gather_spread
      second.port]
    exact congrArg _ same
  have family : first.ip.family.number = second.ip.family.number := by
    rw [← (host.layout 2).gather_spread first.ip.family.number, ← holdsFirst.family,
      holdsSecond.family, Layout.gather_spread]
  refine ⟨?_, port⟩
  cases one : first.ip with
  | unspec =>
      cases two : second.ip with
      | unspec => rfl
      | ip4 other => simp [one, two, IPAddress.family, AddressFamily.number] at family
      | ip6 other => simp [one, two, IPAddress.family, AddressFamily.number] at family
  | ip4 bytes =>
      cases two : second.ip with
      | unspec => simp [one, two, IPAddress.family, AddressFamily.number] at family
      | ip4 other =>
          rw [Vector.toList_inj.mp ((holdsFirst.ip4 bytes one).symm.trans
            (holdsSecond.ip4 other two))]
      | ip6 other => simp [one, two, IPAddress.family, AddressFamily.number] at family
  | ip6 bytes =>
      cases two : second.ip with
      | unspec => simp [one, two, IPAddress.family, AddressFamily.number] at family
      | ip4 other => simp [one, two, IPAddress.family, AddressFamily.number] at family
      | ip6 other =>
          rw [Vector.toList_inj.mp ((holdsFirst.ip6 bytes one).symm.trans
            (holdsSecond.ip6 other two))]

end RoundTrip

end SocketAddress

end RtcBase.Networks
