import RtcBase.Digests.Md5Streaming
import RtcBase.Digests.MessageDigest
import RtcBase.Digests.Sha1Streaming

/-! Keyed digests. `compute_hmac` uses one object for up to three digests, one after the other; each
finish resets the object for the next one.
-/

namespace RtcBase.Digests

open Library

-----------------------------------------------------------------------------------------
-- Objects that compute a digest
-----------------------------------------------------------------------------------------

/-- The class computes the digest `hash` of the message that its context tracks, and has taken nothing
in after a finish into a large enough buffer.
-/
structure Hashes (digest : MessageDigest) (hash : List Byte → List Byte)
    (tracks : digest.Context → List Byte → Prop)
    : Prop where
  update : ∀ {ctx message}, tracks ctx message
    → ∀ data, ∃ after, digest.update ctx data = some after ∧ tracks after (message ++ data)
  finish : ∀ {ctx message output}, tracks ctx message → digest.size ≤ output.length
    → ∃ after,
      digest.finish ctx output
        = some ⟨digest.size, hash message ++ output.drop digest.size, after⟩
      ∧ tracks after []
  length_hash : ∀ message, (hash message).length = digest.size

/-- `finish` stores the digest and resets the context when the buffer is large enough. -/
theorem finishWith_spec {Context : Type} {kSize : Nat}
    {final : Context → Option (Context × List Byte)} {init : Context → Context} {ctx : Context}
    {digest : List Byte} {after : Context} (finals : final ctx = some (after, digest))
    (size : digest.length = kSize) {buf : List Byte} (room : kSize ≤ buf.length)
    : finishWith kSize final init ctx buf
      = some ⟨kSize, digest ++ buf.drop kSize, init after⟩ := by
  have stored := @writeMemory_append _ [] buf digest 0 rfl (by omega)
  rw [size] at stored
  rw [List.nil_append, List.nil_append] at stored
  simp only [finishWith, if_neg (by omega : ¬ buf.length < kSize), finals, stored,
    Option.bind_eq_bind, Option.bind_some, Option.pure_def]

theorem md5Digest_hashes : Hashes md5Digest Rfc1321.md5 Md5.Tracks where
  update h := h.update
  finish h room := by
    obtain ⟨after, finals, whole⟩ := h.final
    exact ⟨_, finishWith_spec finals (Rfc1321.length_md5 _) room, Md5.tracks_init whole⟩
  length_hash := Rfc1321.length_md5

theorem sha1Digest_hashes : Hashes sha1Digest Fips180.sha1 Sha1.Tracks where
  update h := h.update
  finish h room := by
    obtain ⟨after, finals, whole⟩ := h.final
    exact ⟨_, finishWith_spec finals (Fips180.length_sha1 _) room, Sha1.tracks_init whole⟩
  length_hash := Fips180.length_sha1

-----------------------------------------------------------------------------------------
-- The keyed digest
-----------------------------------------------------------------------------------------

section Hmac

variable {digest : MessageDigest} {hash : List Byte → List Byte}
  {tracks : digest.Context → List Byte → Prop}

/-- A digest into a large enough buffer takes what was left in the context with it. -/
theorem Hashes.computeDigest (h : Hashes digest hash tracks) {ctx : digest.Context}
    {left : List Byte} (tracked : tracks ctx left) (input : List Byte) {output : List Byte}
    (room : digest.size ≤ output.length)
    : ∃ after,
        Digests.computeDigest digest ctx input output
          = some ⟨digest.size, hash (left ++ input) ++ output.drop digest.size, after⟩
        ∧ tracks after [] := by
  obtain ⟨middle, updates, tracked⟩ := h.update tracked input
  obtain ⟨after, finishes, reset⟩ := h.finish tracked room
  refine ⟨after, ?_, reset⟩
  rw [Digests.computeDigest, updates]
  exact finishes

/-- The prepared key: a long one is hashed together with what was left in the context. -/
theorem Hashes.prepareKey (h : Hashes digest hash tracks) (small : digest.size ≤ 32)
    (memory : NewMemory) {ctx : digest.Context} {left : List Byte} (tracked : tracks ctx left)
    (key : List Byte)
    : ∃ newKey after,
        Digests.prepareKey digest memory ctx key = some (newKey, after)
        ∧ tracks after (if key.length > kBlockSize then [] else left)
        ∧ (left = [] → newKey = Rfc2104.blockKey hash key) := by
  have block := memory.length_newKey kBlockSize
  have limit : kBlockSize = 64 := rfl
  by_cases long : key.length > kBlockSize
  · obtain ⟨after, computes, reset⟩ := h.computeDigest tracked key
      (show digest.size ≤ (memory.newKey kBlockSize).length by omega)
    have size := h.length_hash (left ++ key)
    have cleared := @writeMemory_fill _ (hash (left ++ key))
      ((memory.newKey kBlockSize).drop digest.size)
      (List.replicate (kBlockSize - digest.size) 0) _ size
      (by rw [List.length_replicate, List.length_drop, block])
    refine ⟨hash (left ++ key) ++ List.replicate (kBlockSize - digest.size) 0, after, ?_, ?_, ?_⟩
    · rw [Digests.prepareKey, if_pos long, computes]
      simp only [Option.bind_eq_bind, Option.bind_some, cleared]
      rfl
    · rwa [if_pos long]
    · rintro rfl
      rw [limit] at long
      rw [Rfc2104.blockKey, if_pos long, List.nil_append, h.length_hash, limit]
  · have copied := @writeMemory_append _ [] (memory.newKey kBlockSize) key 0 rfl (by omega)
    have cleared := @writeMemory_fill _ key ((memory.newKey kBlockSize).drop key.length)
      (List.replicate (kBlockSize - key.length) 0) _ rfl
      (by rw [List.length_replicate, List.length_drop, block])
    refine ⟨key ++ List.replicate (kBlockSize - key.length) 0, ctx, ?_, ?_, ?_⟩
    · rw [List.nil_append, List.nil_append] at copied
      rw [Digests.prepareKey, if_neg long, copied]
      simp only [Option.bind_eq_bind, Option.bind_some, cleared]
      rfl
    · rwa [if_neg long]
    · rintro rfl
      rw [limit] at long
      rw [Rfc2104.blockKey, if_neg long, limit]

/-- `compute_hmac` ends by finishing the outer digest, whose message is that of the keyed digest when
nothing was left in the context.
-/
theorem Hashes.computeHmac (h : Hashes digest hash tracks) (small : digest.size ≤ 32)
    (memory : NewMemory) {ctx : digest.Context} {left : List Byte} (tracked : tracks ctx left)
    (key input output : List Byte)
    : ∃ after message,
        Digests.computeHmac digest memory ctx key input output = digest.finish after output
        ∧ tracks after message
        ∧ (left = [] → hash message = Rfc2104.hmac hash key input) := by
  obtain ⟨newKey, keyed, prepares, tracked, prepared⟩ := h.prepareKey small memory tracked key
  obtain ⟨padded, pads, tracked⟩ := h.update tracked (newKey.map (0x36 ^^^ ·))
  obtain ⟨updated, updates, tracked⟩ := h.update tracked input
  have room : digest.size ≤ (memory.inner digest.size).length := by
    rw [memory.length_inner]
  obtain ⟨reset, finishes, fresh⟩ := h.finish tracked room
  rw [List.drop_of_length_le (by rw [memory.length_inner]), List.append_nil] at finishes
  generalize inner : hash ((if key.length > kBlockSize then [] else left)
    ++ newKey.map (0x36 ^^^ ·) ++ input) = innerDigest at finishes
  obtain ⟨outer, padsOuter, tracked⟩ := h.update fresh (newKey.map (0x5c ^^^ ·))
  obtain ⟨after, updatesOuter, tracked⟩ := h.update tracked innerDigest
  refine ⟨after, _, ?_, tracked, ?_⟩
  · simp only [Digests.computeHmac, if_neg (by omega : ¬ digest.size > 32), prepares, pads, updates,
      finishes, padsOuter, updatesOuter, Option.bind_eq_bind, Option.bind_some]
  · rintro rfl
    rw [ite_self, List.nil_append, prepared rfl] at inner
    rw [List.nil_append, prepared rfl, Rfc2104.hmac, ← inner]

/-- A keyed digest by a fresh object is that of RFC 2104 for every key, into any buffer that has room
for it, and the object is fresh again.
-/
theorem computeHmac_rfc2104 (h : Hashes digest hash tracks) (small : digest.size ≤ 32)
    (memory : NewMemory) {ctx : digest.Context} (fresh : tracks ctx []) (key input : List Byte)
    {output : List Byte} (room : digest.size ≤ output.length)
    : ∃ after,
        Digests.computeHmac digest memory ctx key input output
          = some ⟨digest.size, Rfc2104.hmac hash key input ++ output.drop digest.size, after⟩
        ∧ tracks after [] := by
  obtain ⟨finishing, message, computes, tracked, value⟩ :=
    h.computeHmac small memory fresh key input output
  obtain ⟨after, finishes, reset⟩ := h.finish tracked room
  refine ⟨after, ?_, reset⟩
  rw [computes, finishes, value rfl]

/-- A key of 65 bytes, which is hashed first, and a buffer that is larger than the digest. -/
theorem computeHmac_rfc2104_sha1
    : ∃ after,
        Digests.computeHmac sha1Digest
            ⟨fun size => List.replicate size 0, fun size => List.replicate size 0,
              fun _ => List.length_replicate, fun _ => List.length_replicate⟩
            (Sha1.Context.init ⟨.replicate 5 0, 0, 0, List.replicate 64 0⟩)
            (List.replicate 65 0x6b) [0x61] (List.replicate 24 7)
          = some ⟨20,
              Rfc2104.hmac Fips180.sha1 (List.replicate 65 0x6b) [0x61] ++ List.replicate 4 7, after⟩
        ∧ Sha1.Tracks after [] :=
  computeHmac_rfc2104 sha1Digest_hashes (by decide) _ (Sha1.tracks_init rfl) _ _ (by decide)

end Hmac

end RtcBase.Digests
