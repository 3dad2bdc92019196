import RtcBase.Networks.IPAddress

/-! `SocketAddress`, its comparisons and its text, by which sockets tell destinations apart. -/

namespace RtcBase.Networks

open Library

/-- The fields of `SocketAddress`. -/
structure SocketAddress where
  hostname : Text
  ip : IPAddress
  port : BitVec 16
  scopeId : Int
  literal : Bool
  deriving DecidableEq, Repr

namespace SocketAddress

/-- `SocketAddress::equal_IPs`. -/
def equalIPs (address addr : SocketAddress) : Bool :=
  address.ip.equal addr.ip
    && ((!address.ip.isAny && !address.ip.isUnspec) || address.hostname = addr.hostname)

def equalPorts (address addr : SocketAddress) : Bool := address.port = addr.port

/-- `SocketAddress::operator==`. -/
def equal (address addr : SocketAddress) : Bool := address.equalIPs addr && address.equalPorts addr

/-- `SocketAddress::operator<`. -/
def less (address addr : SocketAddress) : Bool :=
  if !address.ip.equal addr.ip then address.ip.less addr.ip
  else if (address.ip.isAny || address.ip.isUnspec) && address.hostname ≠ addr.hostname then
    address.hostname < addr.hostname
  else address.port < addr.port

/-- `SocketAddress::host_as_URI_string`, over the system's `inet_ntop`. -/
def hostAsURIString (inetNtop : AddressFamily → List Byte → Option Text) (address : SocketAddress)
    : Text :=
  if !address.literal && !address.hostname.isEmpty then address.hostname
  else if address.ip.family = .inet6 then ['['] ++ address.ip.toText inetNtop ++ [']']
  else address.ip.toText inetNtop

/-- `SocketAddress::to_string`. -/
def toText (inetNtop : AddressFamily → List Byte → Option Text) (address : SocketAddress) : Text :=
  address.hostAsURIString inetNtop ++ [':'] ++ Nat.toDigits 10 address.port.toNat

/-- The default constructor, by `SocketAddress::clear`. -/
def nil : SocketAddress := ⟨[], .unspec, 0, 0, false⟩

/-- `SocketAddress::set_IP` of an address. -/
def setIP (address : SocketAddress) (ip : IPAddress) : SocketAddress :=
  { address with hostname := [], literal := false, ip := ip, scopeId := 0 }

/-- `SocketAddress::set_IP` of a host name, over the system's `inet_pton`. -/
def setIPText (inetPton4 : Text → Option (Vector Byte 4))
    (inetPton6 : Text → Option (Vector Byte 16)) (address : SocketAddress) (hostname : Text)
    : SocketAddress :=
  let (literal, ip) := IPAddress.ofText inetPton4 inetPton6 hostname
  { address with
    hostname := hostname
    literal := literal
    ip := if !literal then .unspec else ip
    scopeId := 0 }

/-- `SocketAddress::set_port`, which ignores a port that is out of range. -/
def setPort (address : SocketAddress) (port : Int) : SocketAddress :=
  if port < 0 ∨ port ≥ 65536 then address else { address with port := BitVec.ofInt 16 port }

/-- The constructor from an address and a port, with any port in the memory of the object. -/
def construct (memory : BitVec 16) (ip : IPAddress) (port : Int) : SocketAddress :=
  setPort (setIP ⟨[], .unspec, memory, 0, false⟩ ip) port

/-- The constructor from a host name and a port. -/
def constructText (inetPton4 : Text → Option (Vector Byte 4))
    (inetPton6 : Text → Option (Vector Byte 16)) (memory : BitVec 16) (hostname : Text) (port : Int)
    : SocketAddress :=
  setPort (setIPText inetPton4 inetPton6 ⟨[], .unspec, memory, 0, false⟩ hostname) port

/-- The constructor from an IPv4 address as a number and a port. -/
def constructHostOrder (host : ByteBuffer.Host) (memory : BitVec 16) (ip : Word 4) (port : Int)
    : SocketAddress :=
  setPort (setIP ⟨[], .unspec, memory, 0, false⟩ (.ofHostOrder host ip)) port

/-- `isspace` of the C locale. -/
def isSpace (c : Char) : Bool := c = ' ' ∨ '\t' ≤ c ∧ c ≤ '\r'

/-- The sign that a number may start with, by whether it is a minus, and what follows. -/
def takeSign : Text → Bool × Text
  | '-' :: rest => (true, rest)
  | '+' :: rest => (false, rest)
  | str => (false, str)

/-- `strtoul` of a string in base ten, where `unsigned long` has 64 bits. -/
def strtoul (str : Text) : Word 8 :=
  let (negative, str) := takeSign (str.dropWhile isSpace)
  let value := Nat.ofDigitChars 10 (str.takeWhile Char.isDigit) 0
  if value ≥ 2 ^ 64 then BitVec.allOnes _
  else if negative then -BitVec.ofNat _ value
  else BitVec.ofNat _ value

/-- The conversion of an `unsigned long` to `int`. -/
def toInt32 (value : Word 8) : Int := (value.setWidth 32).toInt

/-- `std::string::find` of a character from a position on. -/
def find (str : Text) (c : Char) (pos : Nat) : Option Nat :=
  if c ∈ str.drop pos then some (pos + (str.drop pos).idxOf c) else none

/-- `std::string::rfind` of a character. -/
def rfind (str : Text) (c : Char) : Option Nat :=
  if c ∈ str then some (str.length - 1 - str.reverse.idxOf c) else none

/-- `SocketAddress::from_string`; `none` is the exception of `at` on an empty string. -/
def ofText (inetPton4 : Text → Option (Vector Byte 4)) (inetPton6 : Text → Option (Vector Byte 16))
    (address : SocketAddress) (str : Text)
    : Option (Bool × SocketAddress) := do
  let first ← str[0]?
  if first = '[' then
    match rfind str ']' with
    | some closebracket =>
        match find str ':' closebracket with
        | some colon =>
            if colon > closebracket then
              let address := address.setPort (toInt32 (strtoul (str.drop (colon + 1))))
              return (true, address.setIPText inetPton4 inetPton6
                ((str.drop 1).take (closebracket - 1)))
            else return (false, address)
        | none => return (false, address)
    | none => return (true, address)
  else
    match find str ':' 0 with
    | none => return (false, address)
    | some pos =>
        let address := address.setPort (toInt32 (strtoul (str.drop (pos + 1))))
        return (true, address.setIPText inetPton4 inetPton6 (str.take pos))

end SocketAddress

end RtcBase.Networks
