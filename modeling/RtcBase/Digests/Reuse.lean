import RtcBase.Digests.Hmac
import RtcBase.Library.Runs

/-! Calls on one digest object, one after the other. Each starts from what the earlier ones left in
the context, which is nothing unless one of them failed with input taken in.
-/

namespace RtcBase.Digests

open Library

-----------------------------------------------------------------------------------------
-- Objects that compute a digest
-----------------------------------------------------------------------------------------

/-- The class computes the digest `hash` of the message that its context tracks. -/
structure Implements (digest : MessageDigest) (hash : List Byte → List Byte)
    (tracks : digest.Context → List Byte → Prop)
    : Prop where
  update : ∀ {ctx message}, tracks ctx message
    → ∀ data, ∃ after, digest.update ctx data = some after ∧ tracks after (message ++ data)
  finish_short : ∀ {ctx output}, output.length < digest.size
    → digest.finish ctx output = some ⟨0, output, ctx⟩
  finish : ∀ {ctx message output}, tracks ctx message → digest.size ≤ output.length
    → ∃ after,
      digest.finish ctx output
        = some ⟨digest.size, hash message ++ output.drop digest.size, after⟩
      ∧ tracks after []
  length_hash : ∀ message, (hash message).length = digest.size
  size_le : digest.size ≤ 32

/-- Without what the class does for a buffer that is too small. -/
theorem Implements.hashes {digest : MessageDigest} {hash : List Byte → List Byte}
    {tracks : digest.Context → List Byte → Prop} (h : Implements digest hash tracks)
    : Hashes digest hash tracks :=
  ⟨h.update, h.finish, h.length_hash⟩

theorem md5Digest_implements : Implements md5Digest Rfc1321.md5 Md5.Tracks where
  update := md5Digest_hashes.update
  finish_short short := if_pos short
  finish := md5Digest_hashes.finish
  length_hash := Rfc1321.length_md5
  size_le := by decide

theorem sha1Digest_implements : Implements sha1Digest Fips180.sha1 Sha1.Tracks where
  update := sha1Digest_hashes.update
  finish_short short := if_pos short
  finish := sha1Digest_hashes.finish
  length_hash := Fips180.length_sha1
  size_le := by decide

section Calls

variable {digest : MessageDigest} {hash : List Byte → List Byte}
  {tracks : digest.Context → List Byte → Prop}

-----------------------------------------------------------------------------------------
-- Calls on one object
-----------------------------------------------------------------------------------------

/-- The digest or keyed digest of the call's own key and input. -/
def DigestCall.value (hash : List Byte → List Byte) : DigestCall → List Byte
  | .digest input _ => hash input
  | .hmac _ key input _ => Rfc2104.hmac hash key input

/-- The call has something to leave in the context when it fails. -/
def DigestCall.takesInput : DigestCall → Bool
  | .digest input _ => input ≠ []
  | .hmac _ _ _ _ => true

/-- What a call is to return and to leave in the caller's buffer, by itself. -/
def DigestCall.expected (size : Nat) (hash : List Byte → List Byte) (call : DigestCall)
    : Nat × List Byte :=
  if call.output.length < size then (0, call.output)
  else (size, call.value hash ++ call.output.drop size)

/-- A failing call has left input that no successful one has taken with it. -/
def leftoverAfter (size : Nat) (leftover : Bool) (call : DigestCall) : Bool :=
  if call.output.length < size then leftover || call.takesInput else false

/-- No successful call follows a failing one that took input in, unless another successful call came
in between.
-/
def SucceedsClean (size : Nat) (calls : List DigestCall) : Prop :=
  Along (leftoverAfter size) (fun leftover call => size ≤ call.output.length → leftover = false)
    false calls

/-- Every call ends by finishing a digest, of its own message when nothing was left in the context. -/
theorem Implements.perform (h : Implements digest hash tracks) {ctx : digest.Context}
    {left : List Byte} (tracked : tracks ctx left) (call : DigestCall)
    : ∃ after message,
        call.perform digest ctx = digest.finish after call.output
        ∧ tracks after message
        ∧ (left = [] → hash message = call.value hash)
        ∧ (left = [] → call.takesInput = false → message = []) := by
  cases call with
  | digest input output =>
      obtain ⟨after, updates, tracked⟩ := h.update tracked input
      refine ⟨after, left ++ input, ?_, tracked, ?_, ?_⟩
      · rw [DigestCall.perform, Digests.computeDigest, updates]
        rfl
      · rintro rfl
        rfl
      · rintro rfl nothing
        simpa [DigestCall.takesInput] using nothing
  | hmac memory key input output =>
      obtain ⟨after, message, computes, tracked, value⟩ :=
        h.hashes.computeHmac h.size_le memory tracked key input output
      exact ⟨after, message, computes, tracked, value, by simp [DigestCall.takesInput]⟩

/-- Calls that succeed on a clean context only return what each is to return by itself, by induction
on the calls.
-/
theorem Implements.performAll (h : Implements digest hash tracks) {ctx : digest.Context}
    {left : List Byte} (tracked : tracks ctx left) {leftover : Bool}
    (nothing : leftover = false → left = []) (calls : List DigestCall)
    (clean : Along (leftoverAfter digest.size)
      (fun leftover call => digest.size ≤ call.output.length → leftover = false) leftover calls)
    : Digests.performAll digest ctx calls
      = some (calls.map (DigestCall.expected digest.size hash)) := by
  induction calls generalizing ctx left leftover with
  | nil => rfl
  | cons call rest ih =>
      obtain ⟨guard, later⟩ := clean
      obtain ⟨finishing, message, performs, tracked, value, empty⟩ := h.perform tracked call
      by_cases short : call.output.length < digest.size
      · have failed := @Implements.finish_short _ _ _ h finishing _ short
        have stillNothing (none : leftoverAfter digest.size leftover call = false)
            : message = [] := by
          rw [leftoverAfter, if_pos short, Bool.or_eq_false_iff] at none
          exact empty (nothing none.1) none.2
        have results := ih tracked stillNothing later
        rw [Digests.performAll, performs, failed]
        simp only [Option.bind_eq_bind, Option.bind_some, results, List.map_cons,
          DigestCall.expected, if_pos short]
        rfl
      · have room : digest.size ≤ call.output.length := by omega
        obtain ⟨after, finishes, reset⟩ := h.finish tracked room
        have results := ih reset (fun _ => rfl) later
        rw [Digests.performAll, performs, finishes]
        simp only [Option.bind_eq_bind, Option.bind_some, results, List.map_cons,
          DigestCall.expected, if_neg short, value (nothing (guard room))]
        rfl

/-- A digest after one that failed is that of both inputs. -/
theorem Implements.digest_after_failed (h : Implements digest hash tracks) {ctx : digest.Context}
    (fresh : tracks ctx []) (failed input : List Byte) {small output : List Byte}
    (short : small.length < digest.size) (room : digest.size ≤ output.length)
    : Digests.performAll digest ctx [.digest failed small, .digest input output]
      = some [(0, small),
          (digest.size, hash (failed ++ input) ++ output.drop digest.size)] := by
  obtain ⟨first, updates, tracked⟩ := h.update fresh failed
  obtain ⟨second, computes, -⟩ := h.hashes.computeDigest tracked input room
  have fails : Digests.computeDigest digest ctx failed small = some ⟨0, small, first⟩ := by
    rw [Digests.computeDigest, updates]
    exact h.finish_short short
  rw [Digests.performAll, DigestCall.perform, fails]
  simp only [Digests.performAll, DigestCall.perform, computes, Option.bind_eq_bind,
    Option.bind_some, Option.pure_def, List.nil_append]

end Calls

/-- The classes of digest objects. -/
inductive DigestClass where
  | md5Digest
  | sha1Digest
  deriving DecidableEq, Repr

/-- The class's interface. -/
def DigestClass.object : DigestClass → MessageDigest
  | .md5Digest => Digests.md5Digest
  | .sha1Digest => Digests.sha1Digest

/-- The digest that the class is for. -/
def DigestClass.hash : DigestClass → List Byte → List Byte
  | .md5Digest => Rfc1321.md5
  | .sha1Digest => Fips180.sha1

/-- The memory of an object before its constructor runs: the buffer in the context has 64 bytes. -/
def DigestClass.IsMemory : (cls : DigestClass) → cls.object.Context → Prop
  | .md5Digest, ctx => (Md5.Context.in_ ctx).length = 64
  | .sha1Digest, ctx => (Sha1.Context.buffer ctx).length = 64

/-- A new object computes its digest and has taken nothing in. -/
theorem DigestClass.implements (cls : DigestClass) {memory : cls.object.Context}
    (whole : cls.IsMemory memory)
    : ∃ tracks,
        Implements cls.object cls.hash tracks ∧ tracks (cls.object.construct memory) [] := by
  cases cls with
  | md5Digest => exact ⟨Md5.Tracks, md5Digest_implements, Md5.tracks_init whole⟩
  | sha1Digest => exact ⟨Sha1.Tracks, sha1Digest_implements, Sha1.tracks_init whole⟩

/-- Every call on a digest object returns the digest or keyed digest of its own key and input, and
zero when the buffer is too small, in every sequence of calls where no successful call meets what
failing ones left: `finish` returns early without a reset when the buffer is too small.
-/
theorem digest_objects_reusable (cls : DigestClass) {memory : cls.object.Context}
    (whole : cls.IsMemory memory) {calls : List DigestCall}
    (clean : SucceedsClean cls.object.size calls)
    : performAll cls.object (cls.object.construct memory) calls
      = some (calls.map (DigestCall.expected cls.object.size cls.hash)) := by
  obtain ⟨tracks, implements, fresh⟩ := cls.implements whole
  exact implements.performAll fresh (fun _ => rfl) calls clean

/-- Witness: a successful digest, a failing one of nothing and a successful keyed digest. -/
theorem md5_object_reused
    : performAll md5Digest (md5Digest.construct ⟨.replicate 4 0, 0, 0, List.replicate 64 0⟩)
        [.digest [0x61] (List.replicate 16 0), .digest [] [],
          .hmac
            ⟨fun size => List.replicate size 0, fun size => List.replicate size 0,
              fun _ => List.length_replicate, fun _ => List.length_replicate⟩
            [0x6b] [0x62] (List.replicate 16 0)]
      = some [(16, Rfc1321.md5 [0x61]), (0, []), (16, Rfc2104.hmac Rfc1321.md5 [0x6b] [0x62])] := by
  have results := @digest_objects_reusable .md5Digest ⟨.replicate 4 0, 0, 0, List.replicate 64 0⟩ rfl
    [.digest [0x61] (List.replicate 16 0), .digest [] [],
      .hmac
        ⟨fun size => List.replicate size 0, fun size => List.replicate size 0,
          fun _ => List.length_replicate, fun _ => List.length_replicate⟩
        [0x6b] [0x62] (List.replicate 16 0)]
    ⟨fun _ => rfl, fun _ => rfl, fun _ => rfl, trivial⟩
  simpa [DigestCall.expected, DigestCall.output, DigestCall.value, DigestClass.object,
    DigestClass.hash, md5Digest] using results

/-- After a digest of `a` that failed for want of room, the digest of `b` is that of `ab`. -/
theorem sha1_object_keeps_failed_input
    : ¬ ∀ (cls : DigestClass) (memory : cls.object.Context) (calls : List DigestCall),
        cls.IsMemory memory
        → performAll cls.object (cls.object.construct memory) calls
          = some (calls.map (DigestCall.expected cls.object.size cls.hash)) := by
  intro always
  have claimed := always .sha1Digest ⟨.replicate 5 0, 0, 0, List.replicate 64 0⟩
    [.digest [0x61] [], .digest [0x62] (List.replicate 20 0)] rfl
  obtain ⟨tracks, implements, fresh⟩ := @DigestClass.implements .sha1Digest
    ⟨.replicate 5 0, 0, 0, List.replicate 64 0⟩ rfl
  have actual := implements.digest_after_failed fresh [0x61] [0x62]
    (show ([] : List Byte).length < 20 by decide) (show 20 ≤ (List.replicate 20 0).length by decide)
  have wanted := claimed.symm.trans actual
  simp only [List.map_cons, List.map_nil, Option.some.injEq, List.cons.injEq] at wanted
  have same : Fips180.sha1 [0x62] = Fips180.sha1 [0x61, 0x62] := by
    simpa [DigestCall.expected, DigestCall.output, DigestCall.value, DigestClass.object,
      DigestClass.hash, sha1Digest] using wanted.2.1
  exact absurd same (by decide +kernel)

end RtcBase.Digests
