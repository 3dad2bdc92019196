import RtcBase.Library.Memory

/-! The host that the buffers run on and the byte order conversions of `byte_order.h`. -/

namespace RtcBase.ByteBuffer

open Library

/-- How the host stores its integers. -/
inductive Endianness where
  | little
  | big
  deriving DecidableEq, Repr

/-- What the buffers take from the machine and its compiler: the endianness, whether plain `char`
is signed, and the uninitialised memory that `new char[size]` returns.
-/
structure Host where
  endianness : Endianness
  charSigned : Bool
  newChars : Nat → List Byte
  length_newChars : ∀ size, (newChars size).length = size

/-- The host's own placement of an integer of `n` bytes. -/
def Host.layout (host : Host) (n : Nat) : Layout n :=
  match host.endianness with
  | .little => .littleEndian n
  | .big => .bigEndian n

/-- `static_cast<uint64_t>` of a `char`, which extends the sign where `char` has one. -/
def Host.widen (host : Host) (byte : Byte) : Word 8 :=
  if host.charSigned then byte.signExtend _ else byte.setWidth _

/-- `set_be16` and its siblings: the memory that they leave, most significant byte first. -/
def setBe (n : Nat) (v : Word n) : List Byte := (Layout.bigEndian n).spread v

/-- `get_be16` and its siblings. -/
def getBe (n : Nat) (memory : List Byte) : Word n := (Layout.bigEndian n).gather memory

/-- `is_host_big_endian`: the first byte in memory of the `int` one. -/
def isHostBigEndian (host : Host) : Bool :=
  ((host.layout 4).spread 1).getD 0 0 == 0

/-- `host_to_network16` and its siblings: the host's reading of the memory that `set_be` fills. -/
def hostToNetwork (host : Host) (n : Nat) (v : Word n) : Word n :=
  (host.layout n).gather (setBe n v)

/-- `network_to_host16` and its siblings. -/
def networkToHost (host : Host) (n : Nat) (v : Word n) : Word n :=
  getBe n ((host.layout n).spread v)

def hostToNetwork16 (host : Host) : Word 2 → Word 2 := hostToNetwork host 2
def hostToNetwork32 (host : Host) : Word 4 → Word 4 := hostToNetwork host 4
def hostToNetwork64 (host : Host) : Word 8 → Word 8 := hostToNetwork host 8
def networkToHost16 (host : Host) : Word 2 → Word 2 := networkToHost host 2
def networkToHost32 (host : Host) : Word 4 → Word 4 := networkToHost host 4
def networkToHost64 (host : Host) : Word 8 → Word 8 := networkToHost host 8

/-- `ByteBuffer::ByteOrder`, with `ORDER_NETWORK` the default. -/
inductive ByteOrder where
  | network
  | host
  deriving DecidableEq, Repr

/-- The placement of an integer of `n` bytes in a buffer of the given order. -/
def wireLayout (host : Host) (order : ByteOrder) (n : Nat) : Layout n :=
  match order with
  | .network => .bigEndian n
  | .host => host.layout n

/-- The host is big endian when its layout is, by cases on the endianness. -/
theorem isHostBigEndian_eq (host : Host)
    : isHostBigEndian host = (host.endianness == .big) := by
  cases endianness : host.endianness with
  | little => simp only [isHostBigEndian, Host.layout, endianness]; decide
  | big => simp only [isHostBigEndian, Host.layout, endianness]; decide

/-- The memory of a converted word is the word in network order. -/
theorem spread_hostToNetwork (host : Host) (n : Nat) (v : Word n)
    : (host.layout n).spread (hostToNetwork host n v) = setBe n v :=
  (host.layout n).spread_gather (by simp [setBe])

/-- The memory of a word on its way into a buffer has the buffer's layout, by cases on the
order.
-/
theorem spread_ordered (host : Host) (order : ByteOrder) (n : Nat) (v : Word n)
    : (host.layout n).spread (if order = .network then hostToNetwork host n v else v)
      = (wireLayout host order n).spread v := by
  cases order with
  | network => exact spread_hostToNetwork host n v
  | host => rfl

/-- The word on its way out of a buffer is read in the buffer's layout, by cases on the order. -/
theorem ordered_gather (host : Host) (order : ByteOrder) {n : Nat} {memory : List Byte}
    (whole : memory.length = n)
    : (if order = .network then networkToHost host n ((host.layout n).gather memory)
        else (host.layout n).gather memory)
      = (wireLayout host order n).gather memory := by
  cases order with
  | network =>
      change networkToHost host n ((host.layout n).gather memory) = getBe n memory
      rw [networkToHost, (host.layout n).spread_gather whole]
  | host => rfl

end RtcBase.ByteBuffer
