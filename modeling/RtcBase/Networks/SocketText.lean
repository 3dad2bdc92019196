import Mathlib.Data.List.TakeWhile
import RtcBase.Networks.SocketOrder

/-! The text of a socket address, read back. Printing puts an IPv6 address in brackets; reading looks
for the closing one from the end and for the colon from there, or for the first colon.
-/

namespace RtcBase.Networks

open Library

namespace SocketAddress

/-- A character is found behind text that does not have it. -/
theorem find_append {before after : Text} {c : Char} (absent : c ∉ before)
    : find (before ++ c :: after) c 0 = some before.length := by
  have member : c ∈ (before ++ c :: after).drop 0 := by simp
  rw [find, if_pos member, List.drop_zero, List.idxOf_append, if_neg absent, List.idxOf_cons_self,
    Nat.zero_add, Nat.zero_add]

/-- A character is found from the end before text that does not have it. -/
theorem rfind_append {before after : Text} {c : Char} (absent : c ∉ after)
    : rfind (before ++ c :: after) c = some before.length := by
  have member : c ∈ before ++ c :: after := by simp
  have reversed : (before ++ c :: after).reverse = after.reverse ++ c :: before.reverse := by simp
  have notAfter : c ∉ after.reverse := by simpa using absent
  rw [rfind, if_pos member, reversed, List.idxOf_append, if_neg notAfter, List.idxOf_cons_self,
    List.length_reverse, List.length_append, List.length_cons]
  congr 1
  omega

/-- A search from the end of some text on looks at what follows. -/
theorem find_from (before after : Text) (c : Char)
    : find (before ++ after) c before.length = (find after c 0).map (before.length + ·) := by
  simp only [find, List.drop_left, List.drop_zero]
  split <;> simp

/-- A character that is not a digit is not among the digits of a number. -/
theorem notMem_toDigits {c : Char} (other : c.isDigit = false) (n : Nat)
    : c ∉ Nat.toDigits 10 n := by
  intro member
  rw [Nat.isDigit_of_mem_toDigits (by omega) (by omega) member] at other
  cases other

/-- A digit is no space. -/
theorem isSpace_of_isDigit {c : Char} (digit : c.isDigit = true) : isSpace c = false := by
  simp only [Char.isDigit, Bool.and_eq_true, decide_eq_true_eq, ge_iff_le, UInt32.le_iff_toNat_le]
    at digit
  have low : 48 ≤ c.val.toNat := digit.1
  simp only [isSpace, decide_eq_false_iff_not, not_or, not_and]
  refine ⟨?_, ?_⟩
  · rintro rfl
    exact absurd low (by decide)
  · intro _ high
    have bound : c.val.toNat ≤ 13 := UInt32.le_iff_toNat_le.mp high
    omega

/-- `strtoul` reads the digits of a number back. -/
theorem strtoul_toDigits {n : Nat} (small : n < 2 ^ 64)
    : strtoul (Nat.toDigits 10 n) = BitVec.ofNat _ n := by
  have digits (c : Char) (member : c ∈ Nat.toDigits 10 n) : c.isDigit = true :=
    Nat.isDigit_of_mem_toDigits (by omega) (by omega) member
  have value : Nat.ofDigitChars 10 (Nat.toDigits 10 n) 0 = n := Nat.ofDigitChars_ten_toDigits
  have noSpace : (Nat.toDigits 10 n).dropWhile isSpace = Nat.toDigits 10 n := by
    obtain ⟨first, rest, split⟩ := List.exists_cons_of_ne_nil (@Nat.toDigits_ne_nil n 10)
    have starts : isSpace first = false := isSpace_of_isDigit (digits first (by simp [split]))
    rw [split, List.dropWhile_cons_of_neg (by simp [starts])]
  have allDigits : (Nat.toDigits 10 n).takeWhile Char.isDigit = Nat.toDigits 10 n :=
    List.takeWhile_eq_self_iff.mpr digits
  have unsigned : takeSign (Nat.toDigits 10 n) = (false, Nat.toDigits 10 n) := by
    rw [takeSign]
    · intro rest same
      exact notMem_toDigits (show '-'.isDigit = false by decide) n (by simp [same])
    · intro rest same
      exact notMem_toDigits (show '+'.isDigit = false by decide) n (by simp [same])
  simp only [strtoul, noSpace, unsigned, allDigits, value, Nat.not_le.mpr small, if_false,
    Bool.false_eq_true]

/-- A port is set from its digits. -/
theorem setPort_toDigits (address : SocketAddress) (port : BitVec 16)
    : address.setPort (toInt32 (strtoul (Nat.toDigits 10 port.toNat)))
      = { address with port := port } := by
  have bound : port.toNat < 65536 := port.isLt
  have value : toInt32 (BitVec.ofNat _ port.toNat) = port.toNat := by
    rw [toInt32, BitVec.toInt_eq_toNat_of_lt]
    · rw [BitVec.toNat_setWidth, BitVec.toNat_ofNat]
      omega
    · rw [BitVec.toNat_setWidth, BitVec.toNat_ofNat]
      omega
  rw [strtoul_toDigits (by omega), value, setPort, if_neg (by omega)]
  simp

/-- The text has a host and a port: behind the last closing bracket the port follows the first
colon, and without brackets the first colon of all.
-/
inductive HostPort : Text → Text → Text → Prop where
  | bracketed (host rest port : Text) (last : ']' ∉ rest ++ ':' :: port) (first : ':' ∉ rest)
    : HostPort ('[' :: host ++ ']' :: (rest ++ ':' :: port)) host port
  | plain (host port : Text) (first : ':' ∉ host) (noBracket : host.head? ≠ some '[')
    : HostPort (host ++ ':' :: port) host port

section System

variable {inetNtop : AddressFamily → List Byte → Option Text}
  {inetPton4 : Text → Option (Vector Byte 4)} {inetPton6 : Text → Option (Vector Byte 16)}

/-- `from_string` of a host and a port sets both, by the two places that they can stand at. -/
theorem ofText_hostPort {str host port : Text} (split : HostPort str host port)
    (address : SocketAddress)
    : address.ofText inetPton4 inetPton6 str
      = some (true,
        (address.setPort (toInt32 (strtoul port))).setIPText inetPton4 inetPton6 host) := by
  cases split with
  | bracketed host rest port last first =>
      have absent : ':' ∉ ']' :: rest := by simp [first]
      have closing := @rfind_append ('[' :: host) (rest ++ ':' :: port) ']' last
      have colon
          : find ('[' :: host ++ ']' :: (rest ++ ':' :: port)) ':' ('[' :: host).length
            = some (('[' :: host).length + (']' :: rest).length) := by
        rw [find_from, ← List.cons_append, find_append absent, Option.map_some]
      have behind : ('[' :: host).length + (']' :: rest).length > ('[' :: host).length := by simp
      have digits : ('[' :: host ++ ']' :: (rest ++ ':' :: port)).drop
          (('[' :: host).length + (']' :: rest).length + 1) = port := by
        have split : '[' :: host ++ ']' :: (rest ++ ':' :: port)
            = ('[' :: host ++ (']' :: rest ++ [':'])) ++ port := by simp
        rw [split, List.drop_left' (by simp only [List.length_append, List.length_singleton]; omega)]
      have inner : (('[' :: host ++ ']' :: (rest ++ ':' :: port)).drop 1).take
          (('[' :: host).length - 1) = host := List.take_left
      have starts : ('[' :: host ++ ']' :: (rest ++ ':' :: port))[0]? = some '[' := rfl
      rw [ofText, starts, Option.bind_eq_bind, Option.bind_some, if_pos rfl, closing]
      simp only [colon, if_pos behind, digits, inner]
      rfl
  | plain host port first noBracket =>
      obtain ⟨head, starts, differs⟩
          : ∃ head, (host ++ ':' :: port)[0]? = some head ∧ head ≠ '[' := by
        cases host with
        | nil => exact ⟨':', rfl, by decide⟩
        | cons head rest =>
            refine ⟨head, rfl, ?_⟩
            rintro rfl
            exact noBracket rfl
      have digits : (host ++ ':' :: port).drop (host.length + 1) = port := by
        rw [← List.drop_drop, List.drop_left]
        rfl
      rw [ofText, starts, Option.bind_eq_bind, Option.bind_some, if_neg differs,
        find_append first]
      simp only [digits, List.take_left]
      rfl

/-- `from_string` of a host without brackets, a colon and a port. -/
theorem ofText_plain (address : SocketAddress) {host : Text} (noColon : ':' ∉ host)
    (noBracket : '[' ∉ host) (port : BitVec 16)
    : address.ofText inetPton4 inetPton6 (host ++ ':' :: Nat.toDigits 10 port.toNat)
      = some (true, { address with port := port }.setIPText inetPton4 inetPton6 host) := by
  have starts : host.head? ≠ some '[' := fun head => noBracket (List.mem_of_head? head)
  rw [ofText_hostPort (.plain host _ noColon starts), setPort_toDigits]

/-- `from_string` of a host in brackets, a colon and a port. -/
theorem ofText_bracketed (address : SocketAddress) (host : Text) (port : BitVec 16)
    : address.ofText inetPton4 inetPton6
        ('[' :: host ++ ']' :: ':' :: Nat.toDigits 10 port.toNat)
      = some (true, { address with port := port }.setIPText inetPton4 inetPton6 host) := by
  have last : ']' ∉ [] ++ ':' :: Nat.toDigits 10 port.toNat := by
    rw [List.nil_append, List.mem_cons, not_or]
    exact ⟨by decide, notMem_toDigits (by decide) _⟩
  have split
      : HostPort ('[' :: host ++ ']' :: ':' :: Nat.toDigits 10 port.toNat) host
          (Nat.toDigits 10 port.toNat) := .bracketed host [] _ last (by simp)
  rw [ofText_hostPort split, setPort_toDigits]

end System

end SocketAddress

/-- What is known of the system's `inet_ntop` and `inet_pton`: `inet_pton` inverts `inet_ntop` for
each family, the text of an IPv4 address has no colon and no opening bracket, and the text of an
IPv6 address is not taken for an IPv4 address.
-/
structure InetTexts (inetNtop : AddressFamily → List Byte → Option Text)
    (inetPton4 : Text → Option (Vector Byte 4)) (inetPton6 : Text → Option (Vector Byte 16))
    : Prop where
  ip4 : ∀ address : Vector Byte 4, ∃ text,
    inetNtop .inet address.toList = some text
    ∧ inetPton4 text = some address
    ∧ ':' ∉ text
    ∧ '[' ∉ text
  ip6 : ∀ address : Vector Byte 16, ∃ text,
    inetNtop .inet6 address.toList = some text
    ∧ inetPton6 text = some address
    ∧ inetPton4 text = none

section ReadBack

variable {inetNtop : AddressFamily → List Byte → Option Text}
  {inetPton4 : Text → Option (Vector Byte 4)} {inetPton6 : Text → Option (Vector Byte 16)}

/-- Reading back leaves the text of the address as the host name, by cases on the family. -/
theorem ofText_toText (texts : InetTexts inetNtop inetPton4 inetPton6) {ip : IPAddress}
    (specified : ip.isUnspec = false) (port : BitVec 16)
    : SocketAddress.nil.ofText inetPton4 inetPton6
        (SocketAddress.toText inetNtop ⟨[], ip, port, 0, false⟩)
      = some (true, ⟨ip.toText inetNtop, ip, port, 0, true⟩) := by
  cases ip with
  | unspec => cases specified
  | ip4 address =>
      obtain ⟨text, prints, reads, noColon, noBracket⟩ := texts.ip4 address
      have written
          : SocketAddress.toText inetNtop ⟨[], .ip4 address, port, 0, false⟩
            = text ++ ':' :: Nat.toDigits 10 port.toNat := by
        simp [SocketAddress.toText, SocketAddress.hostAsURIString, IPAddress.family,
          IPAddress.toText, prints]
      rw [written, SocketAddress.ofText_plain _ noColon noBracket]
      simp [SocketAddress.setIPText, IPAddress.ofText, IPAddress.toText, prints, reads]
  | ip6 address =>
      obtain ⟨text, prints, reads, notIp4⟩ := texts.ip6 address
      have written
          : SocketAddress.toText inetNtop ⟨[], .ip6 address, port, 0, false⟩
            = '[' :: text ++ ']' :: ':' :: Nat.toDigits 10 port.toNat := by
        simp [SocketAddress.toText, SocketAddress.hostAsURIString, IPAddress.family,
          IPAddress.toText, prints]
      rw [written, SocketAddress.ofText_bracketed]
      simp [SocketAddress.setIPText, IPAddress.ofText, IPAddress.toText, prints, reads, notIp4]

/-- What the constructor makes of a port in range. -/
theorem SocketAddress.construct_eq (memory : BitVec 16) (ip : IPAddress) {port : Int}
    (lowest : 0 ≤ port) (highest : port ≤ 65535)
    : SocketAddress.construct memory ip port = ⟨[], ip, BitVec.ofInt 16 port, 0, false⟩ := by
  rw [SocketAddress.construct, SocketAddress.setPort, if_neg (by omega)]
  rfl

/-- A socket address that is constructed from an IP address and a port, written as text and read
back, gives the address and the port again, and an equal socket address unless the IP address is
any address. There `operator==` compares host names too, and the one that is read back has the text
of the address as its host name.
-/
theorem text_read_back (texts : InetTexts inetNtop inetPton4 inetPton6) (memory : BitVec 16)
    {ip : IPAddress} (specified : ip.isUnspec = false) {port : Int} (lowest : 0 ≤ port)
    (highest : port ≤ 65535)
    : ∃ result,
        SocketAddress.nil.ofText inetPton4 inetPton6
            ((SocketAddress.construct memory ip port).toText inetNtop)
          = some (true, result)
        ∧ result.ip = ip
        ∧ (result.port.toNat : Int) = port
        ∧ (ip.isAny = false → result.equal (.construct memory ip port) = true) := by
  have number : ((BitVec.ofInt 16 port).toNat : Int) = port := by
    rw [BitVec.toNat_ofInt]
    omega
  rw [SocketAddress.construct_eq memory ip lowest highest]
  refine ⟨_, ofText_toText texts specified _, rfl, number, ?_⟩
  intro notAny
  have same : ip.equal ip = true := (IPAddress.equal_iff ip ip).mpr rfl
  simp [SocketAddress.equal, SocketAddress.equalIPs, SocketAddress.equalPorts, same, notAny,
    specified]

end ReadBack

-----------------------------------------------------------------------------------------
-- Addresses written in full
-----------------------------------------------------------------------------------------

/-- A byte as two hexadecimal digits. -/
def hexByte (byte : Byte) : Text := [Nat.digitChar (byte.toNat / 16), Nat.digitChar (byte.toNat % 16)]

/-- The value of a hexadecimal digit. -/
def hexValue (c : Char) : Nat := if c.isDigit then c.toNat - 48 else c.toNat - 87

/-- Two bytes for each group. -/
def hexGroups : List Byte → List Text
  | high :: low :: rest => (hexByte high ++ hexByte low) :: hexGroups rest
  | _ => []

/-- The bytes of hexadecimal digits. -/
def ofHex : Text → List Byte
  | high :: low :: rest => BitVec.ofNat 8 (16 * hexValue high + hexValue low) :: ofHex rest
  | _ => []

/-- A system that writes IPv4 addresses with dots and IPv6 addresses with all their digits. -/
def fullNtop : AddressFamily → List Byte → Option Text
  | .inet, bytes =>
      some (List.intercalate ['.'] (bytes.map fun byte => Nat.toDigits 10 byte.toNat))
  | .inet6, bytes => some (List.intercalate [':'] (hexGroups bytes))
  | .unspec, _ => none

def fullPton4 (text : Text) : Option (Vector Byte 4) :=
  match (text.splitOn '.').map fun digits => BitVec.ofNat 8 (Nat.ofDigitChars 10 digits 0) with
  | [a, b, c, d] => some #v[a, b, c, d]
  | _ => none

def fullPton6 (text : Text) : Option (Vector Byte 16) :=
  let bytes := (ofHex (text.splitOn ':').flatten).toArray
  if size : bytes.size = 16 then some ⟨bytes, size⟩ else none

/-- A byte is read back from its hexadecimal digits, none of which is a dot or a colon. -/
theorem ofHex_hexByte
    : ∀ byte : Byte,
        ofHex (hexByte byte) = [byte] ∧ '.' ∉ hexByte byte ∧ ':' ∉ hexByte byte := by
  decide +kernel

/-- Joined texts have only their own characters and the separator, by induction on the texts. -/
theorem notMem_intercalate {c separator : Char} (other : c ≠ separator) {parts : List Text}
    (absent : ∀ part ∈ parts, c ∉ part)
    : c ∉ List.intercalate [separator] parts := by
  induction parts with
  | nil => simp
  | cons first rest ih =>
      obtain ⟨here, later⟩ := List.forall_mem_cons.mp absent
      cases rest with
      | nil => simpa using here
      | cons second others =>
          rw [List.intercalate_cons_cons, List.mem_append, List.mem_append, List.mem_singleton]
          rintro ((inFirst | isSeparator) | inRest)
          · exact here inFirst
          · exact other isSeparator
          · exact ih later inRest

/-- The groups of an even number of bytes give the bytes back and have no dot and no colon, by
induction on the groups.
-/
theorem hexGroups_spec {bytes : List Byte} (even : bytes.length % 2 = 0)
    : ofHex (hexGroups bytes).flatten = bytes
      ∧ ∀ group ∈ hexGroups bytes, '.' ∉ group ∧ ':' ∉ group := by
  induction bytes using hexGroups.induct with
  | case1 high low rest ih =>
      rw [List.length_cons, List.length_cons] at even
      obtain ⟨back, clean⟩ := ih (by omega)
      obtain ⟨highBack, highDot, highColon⟩ := ofHex_hexByte high
      obtain ⟨lowBack, lowDot, lowColon⟩ := ofHex_hexByte low
      refine ⟨?_, ?_⟩
      · have digits (byte : Byte) (rest : Text)
            : ofHex (hexByte byte ++ rest) = ofHex (hexByte byte) ++ ofHex rest := rfl
        rw [hexGroups, List.flatten_cons, List.append_assoc, digits, digits, highBack, lowBack, back]
        rfl
      · intro group member
        rcases List.mem_cons.mp member with rfl | member
        · simp only [List.mem_append, not_or]
          exact ⟨⟨highDot, lowDot⟩, highColon, lowColon⟩
        · exact clean group member
  | case2 bytes short =>
      match bytes, even with
      | [], _ => exact ⟨rfl, by simp [hexGroups]⟩
      | [_], odd => cases odd
      | high :: low :: rest, _ => exact absurd rfl (short high low rest)

/-- `fullPton4` reads back what `fullNtop` writes. -/
theorem fullPton4_text (address : Vector Byte 4)
    : fullPton4 (List.intercalate ['.'] (address.toList.map fun byte => Nat.toDigits 10 byte.toNat))
      = some address := by
  have parts
      : (List.intercalate ['.'] (address.toList.map fun byte => Nat.toDigits 10 byte.toNat)).splitOn
          '.' = address.toList.map fun byte => Nat.toDigits 10 byte.toNat := by
    apply List.splitOn_intercalate
    · intro part member
      obtain ⟨byte, -, rfl⟩ := List.mem_map.mp member
      exact SocketAddress.notMem_toDigits (by decide) _
    · intro none
      have lengths := congrArg List.length none
      simp at lengths
  have values : (address.toList.map fun byte => Nat.toDigits 10 byte.toNat).map
      (fun digits => BitVec.ofNat 8 (Nat.ofDigitChars 10 digits 0)) = address.toList := by
    rw [List.map_map]
    apply List.map_id''
    intro byte
    simp [Nat.ofDigitChars_ten_toDigits]
  rw [fullPton4, parts, values]
  obtain ⟨⟨bytes⟩, size⟩ := address
  match bytes, size with
  | [_, _, _, _], _ => rfl

/-- The system that writes addresses in full reads them back. -/
theorem full_inetTexts : InetTexts fullNtop fullPton4 fullPton6 where
  ip4 address := by
    have digits (c : Char) (other : c.isDigit = false) (notDot : c ≠ '.')
        : c ∉ List.intercalate ['.'] (address.toList.map fun byte => Nat.toDigits 10 byte.toNat) := by
      apply notMem_intercalate notDot
      intro part member
      obtain ⟨byte, -, rfl⟩ := List.mem_map.mp member
      exact SocketAddress.notMem_toDigits other _
    exact ⟨_, rfl, fullPton4_text address, digits ':' (by decide) (by decide),
      digits '[' (by decide) (by decide)⟩
  ip6 address := by
    obtain ⟨back, clean⟩ := hexGroups_spec (show address.toList.length % 2 = 0 by simp)
    have some : hexGroups address.toList ≠ [] := by
      intro none
      rw [none] at back
      have lengths := congrArg List.length back
      simp [ofHex] at lengths
    refine ⟨_, rfl, ?_, ?_⟩
    · rw [fullPton6,
        List.splitOn_intercalate _ (fun group member => (clean group member).2) some, back]
      simp [Vector.toList]
    · -- a text without a dot is one part
      have noDot : '.' ∉ List.intercalate [':'] (hexGroups address.toList) :=
        notMem_intercalate (by decide) fun group member => (clean group member).1
      have whole := @List.splitOn_intercalate _ [List.intercalate [':'] (hexGroups address.toList)] _ _
        '.' (by simpa using noDot) (by simp)
      rw [List.intercalate_singleton] at whole
      rw [fullPton4, whole]
      rfl

/-- Witness: the address `127.0.0.1` and the port 80. -/
theorem loopback_read_back
    : ∃ result,
        SocketAddress.nil.ofText fullPton4 fullPton6
            ((SocketAddress.construct 0 (.ip4 #v[127, 0, 0, 1]) 80).toText fullNtop)
          = some (true, result)
        ∧ result.equal (.construct 0 (.ip4 #v[127, 0, 0, 1]) 80) = true := by
  obtain ⟨result, read, -, -, same⟩ := @text_read_back _ _ _ full_inetTexts 0
    (.ip4 #v[127, 0, 0, 1]) (by decide) 80 (by decide) (by decide)
  exact ⟨result, read, same (by decide)⟩

/-- `0.0.0.0:80` is read back with the host name `0.0.0.0`, which the constructed address does not
have.
-/
theorem any_address_not_read_back
    : ¬ ∀ inetNtop inetPton4 inetPton6,
        InetTexts inetNtop inetPton4 inetPton6
        → ∀ (memory : BitVec 16) (ip : IPAddress) (port : Int),
          ip.isUnspec = false → 0 ≤ port → port ≤ 65535
          → ∃ result,
            SocketAddress.nil.ofText inetPton4 inetPton6
                ((SocketAddress.construct memory ip port).toText inetNtop)
              = some (true, result)
            ∧ result.equal (.construct memory ip port) = true := by
  intro always
  obtain ⟨result, read, same⟩ := always _ _ _ full_inetTexts 0 (.ip4 #v[0, 0, 0, 0]) 80 (by decide)
    (by decide) (by decide)
  have actual := ofText_toText full_inetTexts (show IPAddress.isUnspec (.ip4 #v[0, 0, 0, 0]) = false
    by decide) 80
  cases read.symm.trans actual
  exact absurd same (by decide)

end RtcBase.Networks
