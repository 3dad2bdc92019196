import RtcBase.Networks.Manager
import RtcBase.Networks.SocketText

/-! Network keys do not collide. A name may hold any character, so that a key is taken apart from its
end: the length has no slash and the text of the prefix has no percent sign.
-/

namespace RtcBase.Networks

open Library

/-- Text is split uniquely at the last place of a character, which `rfind` finds. -/
theorem split_last {before after before' after' : Text} {c : Char} (absent : c ∉ after)
    (absent' : c ∉ after') (same : before ++ c :: after = before' ++ c :: after')
    : before = before' ∧ after = after' := by
  have place := @SocketAddress.rfind_append before after c absent
  rw [same, SocketAddress.rfind_append absent'] at place
  have lengths : before.length = before'.length := (Option.some.inj place).symm
  obtain ⟨front, back⟩ := List.append_inj same lengths
  exact ⟨front, (List.cons.inj back).2⟩

/-- The text of a number has digits and a sign only. -/
theorem notMem_intText {c : Char} (other : c.isDigit = false) (noSign : c ≠ '-') (n : Int)
    : c ∉ intText n := by
  have digits := SocketAddress.notMem_toDigits other n.natAbs
  unfold intText
  split
  · rw [List.mem_cons, not_or]
    exact ⟨noSign, digits⟩
  · exact digits

/-- A number is read off its text, by cases on the signs. -/
theorem intText_injective : Function.Injective intText := by
  have sign (n : Nat) (rest : Text) : Nat.toDigits 10 n ≠ '-' :: rest := by
    intro starts
    exact SocketAddress.notMem_toDigits (show '-'.isDigit = false by decide) n (by simp [starts])
  have number {m n : Nat} (same : Nat.toDigits 10 m = Nat.toDigits 10 n) : m = n := by
    have read := congrArg (Nat.ofDigitChars 10 · 0) same
    simpa only [Nat.ofDigitChars_ten_toDigits] using read
  intro m n same
  unfold intText at same
  split at same
  · split at same
    · have size := number (List.cons.inj same).2
      omega
    · exact absurd same.symm (sign _ _)
  · split at same
    · exact absurd same (sign _ _)
    · have size := number same
      omega

/-- A key determines the name, the text of the prefix and its length, where no text of an address
has a percent sign.
-/
theorem makeNetworkKey_parts {env : Environment}
    (unscoped : ∀ family bytes text, env.inetNtop family bytes = some text → '%' ∉ text)
    {name name' : Text} {prefixIP prefixIP' : IPAddress} {length length' : Int}
    (same : makeNetworkKey env name prefixIP length = makeNetworkKey env name' prefixIP' length')
    : name = name' ∧ prefixIP.toText env.inetNtop = prefixIP'.toText env.inetNtop
      ∧ length = length' := by
  have clean (ip : IPAddress) : '%' ∉ ip.toText env.inetNtop := by
    have printed (family : AddressFamily) (bytes : List Byte)
        : '%' ∉ (env.inetNtop family bytes).getD [] := by
      cases text : env.inetNtop family bytes with
      | none => simp
      | some text' => exact unscoped family bytes text' text
    cases ip with
    | unspec => simp [IPAddress.toText]
    | ip4 address => exact printed _ _
    | ip6 address => exact printed _ _
  have noSlash := notMem_intText (show '/'.isDigit = false by decide) (by decide)
  have parts (name : Text) (ip : IPAddress) (length : Int)
      : makeNetworkKey env name ip length
        = (name ++ '%' :: ip.toText env.inetNtop) ++ '/' :: intText length := by
    simp [makeNetworkKey]
  rw [parts, parts] at same
  obtain ⟨front, lengths⟩ := split_last (noSlash length) (noSlash length') same
  obtain ⟨names, prefixes⟩ := split_last (clean prefixIP) (clean prefixIP') front
  exact ⟨names, prefixes, intText_injective lengths⟩

/-- An address that is not unspecified is read off its text. -/
theorem IPAddress.toText_inj {inetNtop : AddressFamily → List Byte → Option Text}
    {inetPton4 : Text → Option (Vector Byte 4)} {inetPton6 : Text → Option (Vector Byte 16)}
    (texts : InetTexts inetNtop inetPton4 inetPton6) {a b : IPAddress}
    (specifiedA : a.isUnspec = false) (specifiedB : b.isUnspec = false)
    (same : a.toText inetNtop = b.toText inetNtop)
    : a = b := by
  have reads {ip : IPAddress} (specified : ip.isUnspec = false)
      : IPAddress.ofText inetPton4 inetPton6 (ip.toText inetNtop) = (true, ip) := by
    cases ip with
    | unspec => cases specified
    | ip4 address =>
        obtain ⟨text, prints, reads, -⟩ := texts.ip4 address
        simp [IPAddress.toText, IPAddress.ofText, prints, reads]
    | ip6 address =>
        obtain ⟨text, prints, reads, notIp4⟩ := texts.ip6 address
        simp [IPAddress.toText, IPAddress.ofText, prints, reads, notIp4]
  have both := reads specifiedA
  rw [same, reads specifiedB] at both
  exact (Prod.mk.inj both).2.symm

/-- What `inet_ntop` is relied on for: every address has a text that is not empty, texts have no
percent sign, and different addresses have different texts.
-/
structure DistinctTexts (inetNtop : AddressFamily → List Byte → Option Text) : Prop where
  ip4 : ∀ address : Vector Byte 4, ∃ text, inetNtop .inet address.toList = some text ∧ text ≠ []
  ip6 : ∀ address : Vector Byte 16, ∃ text, inetNtop .inet6 address.toList = some text ∧ text ≠ []
  unscoped : ∀ family bytes text, inetNtop family bytes = some text → '%' ∉ text
  ip4_inj : ∀ a b : Vector Byte 4, inetNtop .inet a.toList = inetNtop .inet b.toList → a = b
  ip6_inj : ∀ a b : Vector Byte 16, inetNtop .inet6 a.toList = inetNtop .inet6 b.toList → a = b
  families : ∀ (a : Vector Byte 4) (b : Vector Byte 16),
    inetNtop .inet a.toList ≠ inetNtop .inet6 b.toList

/-- An address is read off its text, by cases on the families. -/
theorem DistinctTexts.toText_injective {inetNtop : AddressFamily → List Byte → Option Text}
    (texts : DistinctTexts inetNtop)
    : Function.Injective (IPAddress.toText inetNtop) := by
  have ip4 (address : Vector Byte 4)
      : inetNtop .inet address.toList = some ((IPAddress.ip4 address).toText inetNtop)
        ∧ (IPAddress.ip4 address).toText inetNtop ≠ [] := by
    obtain ⟨text, prints, nonempty⟩ := texts.ip4 address
    rw [IPAddress.toText, prints]
    exact ⟨rfl, nonempty⟩
  have ip6 (address : Vector Byte 16)
      : inetNtop .inet6 address.toList = some ((IPAddress.ip6 address).toText inetNtop)
        ∧ (IPAddress.ip6 address).toText inetNtop ≠ [] := by
    obtain ⟨text, prints, nonempty⟩ := texts.ip6 address
    rw [IPAddress.toText, prints]
    exact ⟨rfl, nonempty⟩
  intro a b same
  cases a with
  | unspec =>
      cases b with
      | unspec => rfl
      | ip4 b => exact absurd same.symm (ip4 b).2
      | ip6 b => exact absurd same.symm (ip6 b).2
  | ip4 a =>
      cases b with
      | unspec => exact absurd same (ip4 a).2
      | ip4 b => rw [texts.ip4_inj a b (by rw [(ip4 a).1, (ip4 b).1, same])]
      | ip6 b => exact absurd (by rw [(ip4 a).1, (ip6 b).1, same]) (texts.families a b)
  | ip6 a =>
      cases b with
      | unspec => exact absurd same (ip6 a).2
      | ip4 b => exact absurd (by rw [(ip4 b).1, (ip6 a).1, same]) (texts.families b a)
      | ip6 b => rw [texts.ip6_inj a b (by rw [(ip6 a).1, (ip6 b).1, same])]

/-- Networks with one key have one name, equal prefixes and one length. -/
theorem makeNetworkKey_inj {env : Environment} (texts : DistinctTexts env.inetNtop)
    {name name' : Text} {prefixIP prefixIP' : IPAddress} {length length' : Int}
    (same : makeNetworkKey env name prefixIP length = makeNetworkKey env name' prefixIP' length')
    : name = name' ∧ prefixIP.equal prefixIP' = true ∧ length = length' := by
  obtain ⟨names, written, lengths⟩ := makeNetworkKey_parts texts.unscoped same
  obtain rfl := texts.toText_injective written
  exact ⟨names, (IPAddress.equal_iff _ _).mpr rfl, lengths⟩

/-- The system that writes addresses in full writes no percent sign. -/
theorem full_unscoped (family : AddressFamily) (bytes : List Byte) (text : Text)
    (written : fullNtop family bytes = some text)
    : '%' ∉ text := by
  have hexDigits : ∀ byte : Byte, '%' ∉ hexByte byte := by decide +kernel
  cases family with
  | unspec => cases written
  | inet =>
      cases written
      apply notMem_intercalate (by decide)
      intro part member
      obtain ⟨byte, -, rfl⟩ := List.mem_map.mp member
      exact SocketAddress.notMem_toDigits (by decide) _
  | inet6 =>
      cases written
      apply notMem_intercalate (by decide)
      intro part member
      induction bytes using hexGroups.induct with
      | case1 high low rest ih =>
          rcases List.mem_cons.mp member with rfl | member
          · rw [List.mem_append, not_or]
            exact ⟨hexDigits high, hexDigits low⟩
          · exact ih member
      | case2 bytes short => simp [hexGroups] at member

/-- Texts that are read back are distinct, where neither reader takes the empty text. -/
theorem InetTexts.distinctTexts {inetNtop : AddressFamily → List Byte → Option Text}
    {inetPton4 : Text → Option (Vector Byte 4)} {inetPton6 : Text → Option (Vector Byte 16)}
    (texts : InetTexts inetNtop inetPton4 inetPton6)
    (unscoped : ∀ family bytes text, inetNtop family bytes = some text → '%' ∉ text)
    (empty4 : inetPton4 [] = none) (empty6 : inetPton6 [] = none)
    : DistinctTexts inetNtop where
  ip4 address := by
    obtain ⟨text, prints, reads, -⟩ := texts.ip4 address
    refine ⟨text, prints, ?_⟩
    rintro rfl
    cases empty4.symm.trans reads
  ip6 address := by
    obtain ⟨text, prints, reads, -⟩ := texts.ip6 address
    refine ⟨text, prints, ?_⟩
    rintro rfl
    cases empty6.symm.trans reads
  unscoped := unscoped
  ip4_inj a b same := by
    obtain ⟨text, prints, reads, -⟩ := texts.ip4 a
    obtain ⟨other, alsoPrints, alsoReads, -⟩ := texts.ip4 b
    cases prints.symm.trans (same.trans alsoPrints)
    exact Option.some.inj (reads.symm.trans alsoReads)
  ip6_inj a b same := by
    obtain ⟨text, prints, reads, -⟩ := texts.ip6 a
    obtain ⟨other, alsoPrints, alsoReads, -⟩ := texts.ip6 b
    cases prints.symm.trans (same.trans alsoPrints)
    exact Option.some.inj (reads.symm.trans alsoReads)
  families a b same := by
    obtain ⟨text, prints, reads, -⟩ := texts.ip4 a
    obtain ⟨other, alsoPrints, -, notIp4⟩ := texts.ip6 b
    cases prints.symm.trans (same.trans alsoPrints)
    cases notIp4.symm.trans reads

/-- A name with both separators. -/
theorem makeNetworkKey_inj_separators
    : let env : Environment := ⟨fullNtop, fun _ items => items, fun _ items => List.Perm.refl items⟩
      DistinctTexts env.inetNtop
      ∧ makeNetworkKey env "tun%/0".toList (.ip4 #v[10, 0, 0, 0]) 8 = "tun%/0%10.0.0.0/8".toList
      ∧ IPAddress.equal (.ip4 #v[10, 0, 0, 0]) (.ip4 #v[10, 0, 0, 0]) = true := by
  intro env
  have texts : DistinctTexts env.inetNtop :=
    full_inetTexts.distinctTexts full_unscoped (by decide) (by decide)
  exact ⟨texts, by decide, (makeNetworkKey_inj texts (Eq.refl
    (makeNetworkKey env "tun%/0".toList (.ip4 #v[10, 0, 0, 0]) 8))).2.1⟩

end RtcBase.Networks
