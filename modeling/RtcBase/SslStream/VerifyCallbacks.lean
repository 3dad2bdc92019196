import RtcBase.SslStream.Consistency

/-! Which certificates the verify callback accepts over whole runs. Before the adapter has
verified a certificate every leaf is compared with the configured digest; afterwards every leaf
is accepted unseen, so a run is sound exactly when no later leaf has another digest.
-/

namespace RtcBase.SslStream

open OpenSSLStreamAdapter

variable {Cert : Type} {x509Digest : Cert → EvpMd → List UInt8} {auth : Bool}

/-- A leaf callback made with a configured algorithm returns 1 only for a certificate whose
digest is the configured one.
-/
def Entry.LeafCallSound (x509Digest : Cert → EvpMd → List UInt8) (entry : Entry Cert) : Prop :=
  ∀ call ret,
    entry.output = .verifyCallback call ret
    → call.depth = 0
    → entry.adapter.peerCertificateDigestAlgorithm ≠ ""
    → ret = 1
    → entry.adapter.DigestMatches x509Digest call.cert

/-- A leaf callback made after the adapter has verified a certificate presents one with the
digest of the certificate on record.
-/
def Entry.LeafCallRepeats (x509Digest : Cert → EvpMd → List UInt8) (entry : Entry Cert)
    : Prop :=
  ∀ call ret recorded,
    entry.output = .verifyCallback call ret
    → call.depth = 0
    → entry.adapter.peerCertificateDigestAlgorithm ≠ ""
    → entry.adapter.peerCertificateVerified = true
    → entry.adapter.peerCertificate = some recorded
    → computeDigest x509Digest call.cert entry.adapter.peerCertificateDigestAlgorithm
          evpMaxMdSize
        = computeDigest x509Digest recorded entry.adapter.peerCertificateDigestAlgorithm
            evpMaxMdSize

/-- At a verified adapter during the handshake the certificate on record matches the digest. -/
theorem Entry.Sound.recorded {entry : Entry Cert} (h : entry.Sound x509Digest auth)
    {call : VerifyCall Cert} {ret : Int} (callback : entry.output = .verifyCallback call ret)
    (verified : entry.adapter.peerCertificateVerified = true)
    : ∃ recorded,
        entry.adapter.peerCertificate = some recorded
        ∧ entry.adapter.DigestMatches x509Digest recorded := by
  have connecting := (h.verifyCallback call ret callback).1
  have known := h.consistent.verified verified
  simpa only [connecting, reduceCtorEq, false_or] using known

/-- A sound leaf callback repeats the digest of the certificate on record, since both match the
configured digest.
-/
theorem Entry.Sound.leafCallRepeats {entry : Entry Cert} (h : entry.Sound x509Digest auth)
    (leafSound : entry.LeafCallSound x509Digest)
    : entry.LeafCallRepeats x509Digest := by
  intro call ret recorded callback leaf configured verified onRecord
  have accepted : ret = 1 := by
    rw [(h.verifyCallback call ret callback).2,
      sslVerifyCallback_ignored (Or.inr (Or.inr verified))]
  have presented := leafSound call ret callback leaf configured accepted
  obtain ⟨cert, present, matched⟩ := h.recorded callback verified
  rw [onRecord] at present
  obtain rfl := Option.some.inj present
  exact presented.trans matched.symm

/-- A leaf callback that repeats the recorded digest is sound: unverified adapters compare the
certificate, verified ones have the matching digest on record.
-/
theorem Entry.Sound.leafCallSound {entry : Entry Cert} (h : entry.Sound x509Digest auth)
    (repeats : entry.LeafCallRepeats x509Digest)
    : entry.LeafCallSound x509Digest := by
  intro call ret callback leaf configured accepted
  by_cases verified : entry.adapter.peerCertificateVerified = true
  · obtain ⟨recorded, present, matched⟩ := h.recorded callback verified
    exact (repeats call ret recorded callback leaf configured verified present).trans matched
  · by_contra mismatch
    have checked := @sslVerifyCallback_checked _ x509Digest auth entry.adapter call h.consistent
      (by omega) configured (by simpa using verified)
    rw [if_neg mismatch] at checked
    have answer := (h.verifyCallback call ret callback).2
    rw [checked] at answer
    omega

/-- Over every run, all leaf callbacks are sound if and only if no leaf presented after a
successful verification has another digest than the certificate on record.
-/
theorem leafCallbacks_sound_iff (x509Digest : Cert → EvpMd → List UInt8)
    (streamState : StreamState) (ops : List (Op Cert))
    : (∀ entry ∈ (System.run x509Digest streamState ops).trace,
          entry.LeafCallSound x509Digest)
      ↔ ∀ entry ∈ (System.run x509Digest streamState ops).trace,
          entry.LeafCallRepeats x509Digest := by
  have sound := (@System.run_sound _ x509Digest streamState ops).trace
  constructor
  · intro leafSound entry member
    exact (sound entry member).leafCallRepeats (leafSound entry member)
  · intro repeats entry member
    exact (sound entry member).leafCallSound (repeats entry member)

-----------------------------------------------------------------------------------------
-- A second certificate is accepted unseen
-----------------------------------------------------------------------------------------

/-- The digest of one certificate is configured, then one handshake step presents that
certificate and another one, both as leaf.
-/
def presentsBoth : List (Op Bool) :=
  [
    .setPeerCertificateDigest "md5" (twoCertificates true .md5),
    .startSSL { handshake := { calls := [⟨true, 0⟩, ⟨false, 0⟩], getError := fun _ => 0 } }
  ]

/-- In that run the callback accepts the certificate with the wrong digest. -/
theorem presentsBoth_accepts_mismatch
    : ¬ ∀ entry ∈ (System.run twoCertificates .opened presentsBoth).trace,
          entry.LeafCallSound twoCertificates := by
  intro sound
  have second := sound _ (List.mem_of_getElem? (i := 2) rfl) ⟨false, 0⟩ 1 rfl rfl
    (by decide) rfl
  revert second
  decide

end RtcBase.SslStream
