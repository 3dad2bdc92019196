import RtcBase.Networks.Manager

/-! The rules by which `get_best_IP` chooses among the IPv6 addresses of a network: a temporary
global address, else any global one, else a unique local one, and never a deprecated address.
-/

namespace RtcBase.Networks

namespace InterfaceAddress

/-- The address may be used and is routed outside its site. -/
def isGlobal (address : InterfaceAddress) : Bool := !address.isDeprecated && !address.ip.isULA

/-- The address may be used and changes with time. -/
def isTemporaryGlobal (address : InterfaceAddress) : Bool :=
  address.isGlobal && address.isTemporary

/-- The address may be used, inside its site only. -/
def isUniqueLocal (address : InterfaceAddress) : Bool := !address.isDeprecated && address.ip.isULA

end InterfaceAddress

variable {ips : List InterfaceAddress}

/-- The loop stops at a temporary global address if there is one, by induction on the addresses. -/
theorem selectIP_temporary (selectedIP ulaIP : InterfaceAddress)
    (present : ∃ address ∈ ips, address.isTemporaryGlobal)
    : (Network.selectIP selectedIP ulaIP ips).1 ∈ ips
      ∧ (Network.selectIP selectedIP ulaIP ips).1.isTemporaryGlobal := by
  induction ips generalizing selectedIP ulaIP with
  | nil => simp at present
  | cons address rest ih =>
      -- a first address that does not stop the loop is not the one that is present
      have later (other : ¬ address.isTemporaryGlobal)
          : ∃ address ∈ rest, address.isTemporaryGlobal := by
        simpa [other] using present
      rw [Network.selectIP]
      split
      case isTrue deprecated =>
        have found := ih selectedIP ulaIP
          (later (by simp [InterfaceAddress.isTemporaryGlobal, InterfaceAddress.isGlobal,
            deprecated]))
        exact ⟨List.mem_cons_of_mem _ found.1, found.2⟩
      case isFalse usable =>
        split
        case isTrue ula =>
          have found := ih selectedIP address
            (later (by simp [InterfaceAddress.isTemporaryGlobal, InterfaceAddress.isGlobal, ula]))
          exact ⟨List.mem_cons_of_mem _ found.1, found.2⟩
        case isFalse routed =>
          split
          case isTrue temporary =>
            refine ⟨List.mem_cons_self, ?_⟩
            simp [InterfaceAddress.isTemporaryGlobal, InterfaceAddress.isGlobal, usable, routed,
              temporary]
          case isFalse lasting =>
            have found := ih address ulaIP
              (later (by simp [InterfaceAddress.isTemporaryGlobal, lasting]))
            exact ⟨List.mem_cons_of_mem _ found.1, found.2⟩

/-- Where no address stops it, the loop keeps the last global and the last unique local address, by
induction on the addresses.
-/
theorem selectIP_lasting (selectedIP ulaIP : InterfaceAddress)
    (absent : ¬ ∃ address ∈ ips, address.isTemporaryGlobal)
    : Network.selectIP selectedIP ulaIP ips
      = ((ips.reverse.find? InterfaceAddress.isGlobal).getD selectedIP,
        (ips.reverse.find? InterfaceAddress.isUniqueLocal).getD ulaIP) := by
  induction ips generalizing selectedIP ulaIP with
  | nil => rfl
  | cons address rest ih =>
      have first : ¬ address.isTemporaryGlobal :=
        fun temporary => absent ⟨address, List.mem_cons_self, temporary⟩
      have later : ¬ ∃ address ∈ rest, address.isTemporaryGlobal :=
        fun ⟨other, member, temporary⟩ =>
          absent ⟨other, List.mem_cons_of_mem _ member, temporary⟩
      rw [Network.selectIP]
      split
      case isTrue deprecated =>
        rw [ih selectedIP ulaIP later]
        simp [InterfaceAddress.isGlobal, InterfaceAddress.isUniqueLocal, deprecated]
      case isFalse usable =>
        split
        case isTrue ula =>
          rw [ih selectedIP address later]
          simp [InterfaceAddress.isGlobal, InterfaceAddress.isUniqueLocal, usable, ula]
        case isFalse routed =>
          split
          case isTrue temporary =>
            exact absurd (by simp [InterfaceAddress.isTemporaryGlobal, InterfaceAddress.isGlobal,
              usable, routed, temporary]) first
          case isFalse lasting =>
            rw [ih address ulaIP later]
            simp [InterfaceAddress.isGlobal, InterfaceAddress.isUniqueLocal, usable, routed]

/-- The last of the addresses of a kind is one of them if there is any. -/
theorem find?_reverse_mem (kind : InterfaceAddress → Bool)
    (present : ∃ address ∈ ips, kind address)
    : ∃ address ∈ ips, kind address ∧ ips.reverse.find? kind = some address := by
  cases found : ips.reverse.find? kind with
  | none =>
      obtain ⟨address, member, holds⟩ := present
      exact absurd holds (List.find?_eq_none.mp found address (List.mem_reverse.mpr member))
  | some address =>
      have member := List.mem_reverse.mp (List.mem_of_find?_eq_some found)
      exact ⟨address, member, List.find?_some found, rfl⟩

/-- Where there is no address of a kind, the search finds none. -/
theorem find?_reverse_absent (kind : InterfaceAddress → Bool)
    (absent : ¬ ∃ address ∈ ips, kind address)
    : ips.reverse.find? kind = none := by
  rw [List.find?_eq_none]
  exact fun address member holds => absent ⟨address, List.mem_reverse.mp member, holds⟩

/-- An IPv6 address is not unspecified. -/
theorem isUnspec_of_inet6 {ip : IPAddress} (inet6 : ip.family = .inet6)
    : ip.isUnspec = false := by
  simp [IPAddress.isUnspec, inet6]

/-- `get_best_IP` after its two early returns, which an IPv6 network with no address agrees with. -/
theorem getBestIP_inet6 {network : Network} (inet6 : network.prefixIP.family = .inet6)
    : network.getBestIP
      = if (Network.selectIP .unspec .unspec network.ips).1.ip.isUnspec
          && !(Network.selectIP .unspec .unspec network.ips).2.ip.isUnspec
        then (Network.selectIP .unspec .unspec network.ips).2.ip
        else (Network.selectIP .unspec .unspec network.ips).1.ip := by
  unfold Network.getBestIP
  split
  case h_1 empty =>
    rw [empty]
    rfl
  case h_2 => simp [inet6]

/-- The rules of `get_best_IP` for a network with an IPv6 prefix and IPv6 addresses in any order:
temporary global addresses come first, then the other global ones, then the unique local ones, and
without any of these the address is unspecified.
-/
theorem getBestIP_policy {network : Network} (inet6 : network.prefixIP.family = .inet6)
    (addresses : ∀ address ∈ network.ips, address.ip.family = .inet6)
    : ((∃ address ∈ network.ips, address.isTemporaryGlobal) →
        ∃ address ∈ network.ips, address.isTemporaryGlobal ∧ network.getBestIP = address.ip)
      ∧ ((¬ ∃ address ∈ network.ips, address.isTemporaryGlobal) →
        (∃ address ∈ network.ips, address.isGlobal) →
        ∃ address ∈ network.ips, address.isGlobal ∧ network.getBestIP = address.ip)
      ∧ ((¬ ∃ address ∈ network.ips, address.isGlobal) →
        (∃ address ∈ network.ips, address.isUniqueLocal) →
        ∃ address ∈ network.ips, address.isUniqueLocal ∧ network.getBestIP = address.ip)
      ∧ ((¬ ∃ address ∈ network.ips, address.isGlobal ∨ address.isUniqueLocal) →
        network.getBestIP = .unspec) := by
  rw [getBestIP_inet6 inet6]
  -- a temporary global address is global
  have lasting (absent : ¬ ∃ address ∈ network.ips, address.isGlobal)
      : ¬ ∃ address ∈ network.ips, address.isTemporaryGlobal := by
    rintro ⟨address, member, temporary⟩
    simp only [InterfaceAddress.isTemporaryGlobal, Bool.and_eq_true] at temporary
    exact absent ⟨address, member, temporary.1⟩
  refine ⟨?_, ?_, ?_, ?_⟩
  · intro present
    obtain ⟨member, temporary⟩ := selectIP_temporary .unspec .unspec present
    refine ⟨_, member, temporary, ?_⟩
    simp [isUnspec_of_inet6 (addresses _ member)]
  · intro absent present
    obtain ⟨address, member, routed, found⟩ := find?_reverse_mem InterfaceAddress.isGlobal present
    refine ⟨address, member, routed, ?_⟩
    rw [selectIP_lasting _ _ absent, found]
    simp [isUnspec_of_inet6 (addresses _ member)]
  · intro absent present
    obtain ⟨address, member, ula, found⟩ :=
      find?_reverse_mem InterfaceAddress.isUniqueLocal present
    refine ⟨address, member, ula, ?_⟩
    have unspecified : InterfaceAddress.unspec.ip.isUnspec = true := rfl
    rw [selectIP_lasting _ _ (lasting absent), find?_reverse_absent _ absent, found]
    simp [isUnspec_of_inet6 (addresses _ member), unspecified]
  · intro absent
    have noGlobal : ¬ ∃ address ∈ network.ips, address.isGlobal :=
      fun ⟨address, member, routed⟩ => absent ⟨address, member, Or.inl routed⟩
    have noLocal : ¬ ∃ address ∈ network.ips, address.isUniqueLocal :=
      fun ⟨address, member, ula⟩ => absent ⟨address, member, Or.inr ula⟩
    rw [selectIP_lasting _ _ (lasting noGlobal), find?_reverse_absent _ noGlobal,
      find?_reverse_absent _ noLocal]
    rfl

/-- A network that was given a deprecated, a unique local, a lasting and a temporary address. -/
def mixedNetwork : Network where
  name := ['e', 't', 'h', '0']
  description := []
  prefixIP := .ip6 (.replicate 16 0)
  prefixLength := 64
  key := []
  ips :=
    [ ⟨.ip6 #v[0x20, 1, 0, 0, 0, 0, 0, 0, 0, 0, 0, 0, 0, 0, 0, 1], 3⟩,
      ⟨.ip6 #v[0xFD, 0, 0, 0, 0, 0, 0, 0, 0, 0, 0, 0, 0, 0, 0, 2], 1⟩,
      ⟨.ip6 #v[0x20, 1, 0, 0, 0, 0, 0, 0, 0, 0, 0, 0, 0, 0, 0, 3], 0⟩,
      ⟨.ip6 #v[0x20, 1, 0, 0, 0, 0, 0, 0, 0, 0, 0, 0, 0, 0, 0, 4], 1⟩ ]
  scopeId := 0
  ignored := false
  type := .unknown
  preference := 0
  active := true
  id := 0

/-- The temporary global address of the network is the best one. -/
theorem getBestIP_policy_mixed
    : (∃ address ∈ mixedNetwork.ips,
        address.isTemporaryGlobal ∧ mixedNetwork.getBestIP = address.ip)
      ∧ mixedNetwork.getBestIP
        = .ip6 #v[0x20, 1, 0, 0, 0, 0, 0, 0, 0, 0, 0, 0, 0, 0, 0, 4] := by
  have policy := @getBestIP_policy mixedNetwork (by decide) (by decide)
  exact ⟨policy.1 (by decide), by decide⟩

end RtcBase.Networks
