import RtcBase.SslStream.System

/-! The invariant of the adapter: what the verified flag, the recorded certificate, the
configured digest, the timer and the six states say about one another, in every state and
at every entry of the trace of every run.
-/

namespace RtcBase.SslStream

open RtcBase.Library

variable {Cert : Type} {x509Digest : Cert → EvpMd → List UInt8} {auth : Bool}

/-- The certificate's digest under the configured algorithm is the configured digest value. -/
def OpenSSLStreamAdapter.DigestMatches (x509Digest : Cert → EvpMd → List UInt8)
    (a : OpenSSLStreamAdapter Cert) (cert : Cert)
    : Prop :=
  computeDigest x509Digest cert a.peerCertificateDigestAlgorithm evpMaxMdSize
    = some a.peerCertificateDigestValue

instance (a : OpenSSLStreamAdapter Cert) (cert : Cert)
    : Decidable (a.DigestMatches x509Digest cert) :=
  inferInstanceAs (Decidable (_ = _))

/-- The relations between the adapter's members that every operation keeps. With `auth`, they
include that client authentication is enabled.
-/
structure OpenSSLStreamAdapter.Consistent (x509Digest : Cert → EvpMd → List UInt8)
    (auth : Bool) (a : OpenSSLStreamAdapter Cert)
    : Prop where
  clientAuth : auth = true → a.clientAuthEnabled = true
  digestNonempty
    : a.peerCertificateDigestAlgorithm ≠ "" → a.peerCertificateDigestValue ≠ []
  unconfigured
    : a.peerCertificateDigestAlgorithm = ""
      → a.peerCertificate = none ∧ a.peerCertificateVerified = false
  verified
    : a.peerCertificateVerified = true
      → a.state = .error
        ∨ a.state = .closed
        ∨ ∃ cert, a.peerCertificate = some cert ∧ a.DigestMatches x509Digest cert
  armed : a.handshakeTimerWatcher = .armed → a.state = .connecting
  untouched
    : a.state = .none ∨ a.state = .wait
      → a.peerCertificate = none
        ∧ a.peerCertificateVerified = false
        ∧ a.ssl = false
        ∧ a.sslCtx = false
  released
    : a.state = .error ∨ a.state = .closed
      → a.peerCertificate = none ∧ a.ssl = false ∧ a.sslCtx = false

/-- What an entry of a trace says of the adapter at that moment. -/
structure Entry.Sound (x509Digest : Cert → EvpMd → List UInt8) (auth : Bool)
    (entry : Entry Cert)
    : Prop where
  consistent : entry.adapter.Consistent x509Digest auth
  verifyCallback
    : ∀ call ret,
        entry.output = .verifyCallback call ret
        → entry.adapter.state = .connecting
          ∧ ret = (entry.adapter.sslVerifyCallback x509Digest call).2
  ownOpen
    : entry.ownOpen = true
      → entry.adapter.state = .connected
        ∧ entry.adapter.waitingToVerifyPeerCertificate = false

/-- The outcome of an operation: a consistent adapter and a sound trace. -/
structure Outcome.Sound {α : Type} (x509Digest : Cert → EvpMd → List UInt8) (auth : Bool)
    (outcome : Outcome Cert α)
    : Prop where
  consistent : outcome.adapter.Consistent x509Digest auth
  trace : ∀ entry ∈ outcome.trace, entry.Sound x509Digest auth

/-- An entry that is neither a callback nor the adapter's own open is sound as soon as the
adapter is consistent.
-/
theorem OpenSSLStreamAdapter.Consistent.entry {a : OpenSSLStreamAdapter Cert}
    (h : a.Consistent x509Digest auth) {output : Output Cert}
    (noCallback : ∀ call ret, output ≠ .verifyCallback call ret)
    (noOpen : (⟨output, a⟩ : Entry Cert).ownOpen = false)
    : (⟨output, a⟩ : Entry Cert).Sound x509Digest auth := by
  refine ⟨h, ?_, ?_⟩
  · intro call ret same
    exact absurd same (noCallback call ret)
  · intro opened
    rw [noOpen] at opened
    contradiction

namespace OpenSSLStreamAdapter

-----------------------------------------------------------------------------------------
-- Verification changes the recorded certificate and the flag, nothing else
-----------------------------------------------------------------------------------------

/-- Verifying a recorded certificate succeeds exactly on a configured, matching digest. -/
theorem verifyPeerCertificate_some {a : OpenSSLStreamAdapter Cert} {cert : Cert}
    (recorded : a.peerCertificate = some cert)
    : a.verifyPeerCertificate x509Digest
      = if a.hasPeerCertificateDigest = true ∧ a.DigestMatches x509Digest cert then
          ({ a with peerCertificateVerified := true }, true)
        else (a, false) := by
  by_cases configured : a.hasPeerCertificateDigest = true
  · cases computed : computeDigest x509Digest cert a.peerCertificateDigestAlgorithm
        evpMaxMdSize with
    | none => simp [verifyPeerCertificate, DigestMatches, recorded, configured, computed]
    | some digest =>
        by_cases same : digest = a.peerCertificateDigestValue <;>
          simp [verifyPeerCertificate, DigestMatches, recorded, configured, computed, same]
  · simp [verifyPeerCertificate, recorded, configured]

/-- A consistent adapter with an algorithm has a digest to compare with. -/
theorem Consistent.hasDigest {a : OpenSSLStreamAdapter Cert} (h : a.Consistent x509Digest auth)
    (configured : a.peerCertificateDigestAlgorithm ≠ "")
    : a.hasPeerCertificateDigest = true := by
  simp [hasPeerCertificateDigest, configured, h.digestNonempty configured]

/-- A verify callback that ignores its certificate answers 1 and changes nothing. -/
theorem sslVerifyCallback_ignored {a : OpenSSLStreamAdapter Cert} {call : VerifyCall Cert}
    (ignored : call.depth > 0 ∨ a.peerCertificateDigestAlgorithm = ""
      ∨ a.peerCertificateVerified = true)
    : a.sslVerifyCallback x509Digest call = (a, 1) := by
  unfold sslVerifyCallback
  split_ifs with depth unknown unverified
  · rfl
  · rfl
  · simp_all
  · rfl

/-- A verify callback that looks at its leaf certificate records it and answers 1 exactly
when the digest matches.
-/
theorem sslVerifyCallback_checked {a : OpenSSLStreamAdapter Cert} {call : VerifyCall Cert}
    (h : a.Consistent x509Digest auth) (leaf : call.depth ≤ 0)
    (configured : a.peerCertificateDigestAlgorithm ≠ "")
    (unverified : a.peerCertificateVerified = false)
    : a.sslVerifyCallback x509Digest call
      = if a.DigestMatches x509Digest call.cert then
          ({ a with peerCertificate := some call.cert, peerCertificateVerified := true }, 1)
        else ({ a with peerCertificate := some call.cert }, 0) := by
  have shallow : ¬ call.depth > 0 := by omega
  have checked
      : verifyPeerCertificate x509Digest { a with peerCertificate := some call.cert }
        = if a.DigestMatches x509Digest call.cert then
            ({ a with peerCertificate := some call.cert, peerCertificateVerified := true }, true)
          else ({ a with peerCertificate := some call.cert }, false) := by
    rw [verifyPeerCertificate_some rfl]
    have hasDigest
        : hasPeerCertificateDigest { a with peerCertificate := some call.cert } = true :=
      h.hasDigest configured
    simp only [hasDigest, true_and]
    rfl
  unfold sslVerifyCallback
  rw [if_neg shallow, if_neg configured, if_pos (by simp [unverified])]
  dsimp only
  rw [checked]
  split_ifs <;> rfl

/-- A callback changes at most the recorded certificate and the flag, by its two cases. -/
theorem sslVerifyCallback_frame (a : OpenSSLStreamAdapter Cert) (call : VerifyCall Cert)
    : ∃ cert flag,
        (a.sslVerifyCallback x509Digest call).1
          = { a with peerCertificate := cert, peerCertificateVerified := flag } := by
  unfold sslVerifyCallback
  split_ifs with depth unknown unverified
  · exact ⟨_, _, rfl⟩
  · exact ⟨_, _, rfl⟩
  · dsimp only
    rw [verifyPeerCertificate_some rfl]
    split_ifs
    · exact ⟨_, _, rfl⟩
    · exact ⟨_, _, rfl⟩
  · exact ⟨_, _, rfl⟩

/-- A callback during the handshake keeps the invariant: either nothing changes, or the
recorded certificate is the one just compared with the digest.
-/
theorem Consistent.sslVerifyCallback {a : OpenSSLStreamAdapter Cert}
    (h : a.Consistent x509Digest auth) (connecting : a.state = .connecting)
    (call : VerifyCall Cert)
    : (a.sslVerifyCallback x509Digest call).1.Consistent x509Digest auth := by
  by_cases ignored : call.depth > 0 ∨ a.peerCertificateDigestAlgorithm = ""
      ∨ a.peerCertificateVerified = true
  · rw [sslVerifyCallback_ignored ignored]
    exact h
  · simp only [not_or, Bool.not_eq_true, gt_iff_lt, Int.not_lt] at ignored
    obtain ⟨leaf, configured, unverified⟩ := ignored
    rw [sslVerifyCallback_checked h leaf configured unverified]
    split_ifs with same
    · exact {
        clientAuth := h.clientAuth
        digestNonempty := h.digestNonempty
        unconfigured := fun unknown => absurd unknown configured
        verified := fun _ => Or.inr (Or.inr ⟨call.cert, rfl, same⟩)
        armed := h.armed
        untouched := by simp [connecting]
        released := by simp [connecting]
      }
    · exact {
        clientAuth := h.clientAuth
        digestNonempty := h.digestNonempty
        unconfigured := fun unknown => absurd unknown configured
        verified := by simp [unverified]
        armed := h.armed
        untouched := by simp [connecting]
        released := by simp [connecting]
      }

/-- A run of callbacks changes at most the recorded certificate and the flag, by induction on
the calls.
-/
theorem runVerifyCallbacks_frame (a : OpenSSLStreamAdapter Cert)
    (calls : List (VerifyCall Cert))
    : ∃ cert flag,
        (a.runVerifyCallbacks x509Digest calls).adapter
          = { a with peerCertificate := cert, peerCertificateVerified := flag } := by
  induction calls generalizing a with
  | nil => exact ⟨_, _, rfl⟩
  | cons call rest ih =>
      obtain ⟨cert, flag, first⟩ := sslVerifyCallback_frame a call
      obtain ⟨last, final, later⟩ := ih (a.sslVerifyCallback x509Digest call).1
      refine ⟨last, final, ?_⟩
      rw [show (a.runVerifyCallbacks x509Digest (call :: rest)).adapter
        = ((a.sslVerifyCallback x509Digest call).1.runVerifyCallbacks x509Digest rest).adapter
        from rfl, later, first]

/-- A run of callbacks leaves nothing but callback entries, by induction on the calls. -/
theorem runVerifyCallbacks_output (a : OpenSSLStreamAdapter Cert)
    (calls : List (VerifyCall Cert))
    : ∀ entry ∈ (a.runVerifyCallbacks x509Digest calls).trace,
        ∃ call ret, entry.output = .verifyCallback call ret := by
  induction calls generalizing a with
  | nil => simp [runVerifyCallbacks]
  | cons call rest ih =>
      intro entry member
      rcases List.mem_cons.mp member with rfl | later
      · exact ⟨call, _, rfl⟩
      · exact ih _ entry later

/-- A run of callbacks during the handshake is sound, by induction on the calls. -/
theorem Consistent.runVerifyCallbacks {a : OpenSSLStreamAdapter Cert}
    (h : a.Consistent x509Digest auth) (connecting : a.state = .connecting)
    (calls : List (VerifyCall Cert))
    : (a.runVerifyCallbacks x509Digest calls).Sound x509Digest auth := by
  induction calls generalizing a with
  | nil => exact ⟨h, by simp [OpenSSLStreamAdapter.runVerifyCallbacks]⟩
  | cons call rest ih =>
      obtain ⟨cert, flag, framed⟩ := sslVerifyCallback_frame a call
      have later := ih (h.sslVerifyCallback connecting call) (by rw [framed]; exact connecting)
      refine ⟨later.consistent, ?_⟩
      intro entry member
      rcases List.mem_cons.mp member with rfl | following
      · refine ⟨h, ?_, ?_⟩
        · rintro _ _ ⟨rfl, rfl⟩
          exact ⟨connecting, rfl⟩
        · simp [Entry.ownOpen]
      · exact later.trace entry following

-----------------------------------------------------------------------------------------
-- Every operation keeps the invariant and leaves a sound trace
-----------------------------------------------------------------------------------------

/-- Stopping the timer keeps the invariant, since only an armed timer constrains the state. -/
theorem Consistent.stopTimer {a : OpenSSLStreamAdapter Cert} (h : a.Consistent x509Digest auth)
    : a.stopTimer.Consistent x509Digest auth := by
  unfold OpenSSLStreamAdapter.stopTimer
  split
  · exact h
  · exact { h with armed := by simp }

@[simp] theorem stopTimer_state (a : OpenSSLStreamAdapter Cert)
    : a.stopTimer.state = a.state := by
  unfold OpenSSLStreamAdapter.stopTimer
  split <;> rfl

/-- The timer may be started while connecting. -/
theorem Consistent.startTimer {a : OpenSSLStreamAdapter Cert} (h : a.Consistent x509Digest auth)
    (connecting : a.state = .connecting)
    : a.startTimer.Consistent x509Digest auth := by
  unfold OpenSSLStreamAdapter.startTimer
  split
  · exact h
  · exact { h with armed := fun _ => connecting }

@[simp] theorem startTimer_state (a : OpenSSLStreamAdapter Cert)
    : a.startTimer.state = a.state := by
  unfold OpenSSLStreamAdapter.startTimer
  split <;> rfl

/-- After a cleanup the adapter is closed, or still in error. -/
theorem cleanup_state (a : OpenSSLStreamAdapter Cert)
    : a.cleanup.state = if a.state = .error then .error else .closed := by
  unfold cleanup
  by_cases failed : a.state = .error <;> simp [failed]

/-- A cleanup releases everything the invariant speaks of. -/
theorem Consistent.cleanup {a : OpenSSLStreamAdapter Cert} (h : a.Consistent x509Digest auth)
    : a.cleanup.Consistent x509Digest auth := by
  have finished : a.cleanup.state = .error ∨ a.cleanup.state = .closed := by
    rw [cleanup_state]
    split_ifs <;> simp
  have policy : a.cleanup.clientAuthEnabled = a.clientAuthEnabled := by
    unfold OpenSSLStreamAdapter.cleanup
    split_ifs <;> rfl
  have value : a.cleanup.peerCertificateDigestValue = a.peerCertificateDigestValue := by
    unfold OpenSSLStreamAdapter.cleanup
    split_ifs <;> rfl
  have algorithm
      : a.cleanup.peerCertificateDigestAlgorithm = a.peerCertificateDigestAlgorithm := by
    unfold OpenSSLStreamAdapter.cleanup
    split_ifs <;> rfl
  have flag : a.cleanup.peerCertificateVerified = a.peerCertificateVerified := by
    unfold OpenSSLStreamAdapter.cleanup
    split_ifs <;> rfl
  exact {
    clientAuth := by
      rw [policy]
      exact h.clientAuth
    digestNonempty := by
      rw [value, algorithm]
      exact h.digestNonempty
    unconfigured := by
      rw [algorithm, flag]
      exact fun unknown => ⟨rfl, (h.unconfigured unknown).2⟩
    verified := fun _ => finished.imp_right Or.inl
    armed := by simp [OpenSSLStreamAdapter.cleanup]
    untouched := by
      intro early
      rcases finished with failed | closed
      · simp [failed] at early
      · simp [closed] at early
    released := fun _ => ⟨rfl, rfl, rfl⟩
  }

/-- Reporting an error keeps the invariant, since it cleans up first. -/
theorem Consistent.errorInfo {a : OpenSSLStreamAdapter Cert} (h : a.Consistent x509Digest auth)
    (err : Int) (signal : Bool)
    : (a.errorInfo err signal).Sound x509Digest auth := by
  -- The state changes before the cleanup, so the intermediate adapter needs its own invariant
  -- only as far as the cleanup reads it.
  have cleaned
      : (OpenSSLStreamAdapter.cleanup
          { a with state := .error, sslErrorCode := err }).Consistent x509Digest auth := {
    clientAuth := h.clientAuth
    digestNonempty := h.digestNonempty
    unconfigured := fun unknown => ⟨rfl, (h.unconfigured unknown).2⟩
    verified := fun _ => Or.inl rfl
    armed := by simp [OpenSSLStreamAdapter.cleanup]
    untouched := by simp [OpenSSLStreamAdapter.cleanup]
    released := fun _ => ⟨rfl, rfl, rfl⟩
  }
  refine ⟨cleaned, ?_⟩
  intro entry member
  cases signal with
  | false => simp [OpenSSLStreamAdapter.errorInfo] at member
  | true =>
      obtain rfl := List.mem_singleton.mp member
      exact cleaned.entry (by simp) rfl

/-- A handshake step taken while connecting is sound: the callbacks are, and the state then
moves to connected or stays.
-/
theorem Consistent.continueSSL {a : OpenSSLStreamAdapter Cert} (h : a.Consistent x509Digest auth)
    (connecting : a.state = .connecting) (handshake : Handshake Cert)
    : (a.continueSSL x509Digest handshake).Sound x509Digest auth := by
  have stopped : a.stopTimer.state = .connecting := by rw [stopTimer_state, connecting]
  have sound := h.stopTimer.runVerifyCallbacks stopped handshake.calls
  have unarmed : a.stopTimer.handshakeTimerWatcher ≠ .armed := by
    unfold OpenSSLStreamAdapter.stopTimer
    split <;> simp_all
  obtain ⟨cert, flag, framed⟩ :=
    @runVerifyCallbacks_frame _ x509Digest a.stopTimer handshake.calls
  unfold OpenSSLStreamAdapter.continueSSL
  generalize a.stopTimer.runVerifyCallbacks x509Digest handshake.calls = verified at sound framed
  have state : verified.adapter.state = .connecting := by rw [framed, ← stopped]
  have idle : verified.adapter.handshakeTimerWatcher ≠ .armed := by rwa [framed]
  have connected
      : ({ verified.adapter with state := .connected } : OpenSSLStreamAdapter Cert).Consistent
          x509Digest auth := {
    clientAuth := sound.consistent.clientAuth
    digestNonempty := sound.consistent.digestNonempty
    unconfigured := sound.consistent.unconfigured
    verified := by
      intro accepted
      have recorded := sound.consistent.verified accepted
      simp only [state, reduceCtorEq, false_or] at recorded
      exact Or.inr (Or.inr recorded)
    armed := fun running => absurd running idle
    untouched := by simp
    released := by simp
  }
  have unfinished {next : OpenSSLStreamAdapter Cert} (consistent : next.Consistent x509Digest auth)
      : (⟨next, verified.trace ++ [⟨.handshakeStep 0, next⟩], 0⟩ : Outcome Cert Int).Sound
          x509Digest auth := by
    refine ⟨consistent, ?_⟩
    simp only [List.forall_mem_append, List.forall_mem_singleton]
    exact ⟨sound.trace, consistent.entry (by simp) rfl⟩
  dsimp only
  split_ifs with completed waiting wantRead wantWrite
  · refine ⟨connected, ?_⟩
    simp only [List.append_nil, List.forall_mem_append, List.forall_mem_singleton]
    exact ⟨sound.trace, connected.entry (by simp) rfl⟩
  · refine ⟨connected, ?_⟩
    simp only [List.forall_mem_append, List.forall_mem_singleton]
    refine ⟨⟨sound.trace, connected, by simp, ?_⟩, connected.entry (by simp) rfl⟩
    intro _
    exact ⟨rfl, by simpa using waiting⟩
  · apply unfinished
    split
    · exact sound.consistent
    · split_ifs
      · exact sound.consistent.startTimer state
      · exact sound.consistent
  · exact unfinished sound.consistent
  all_goals
    refine ⟨sound.consistent, ?_⟩
    simp only [List.forall_mem_append, List.forall_mem_cons]
    exact ⟨sound.trace, sound.consistent.entry (by simp) rfl,
      sound.consistent.entry (by simp) rfl, List.forall_mem_nil _⟩

/-- Leaving an early state for connecting keeps the invariant: nothing is verified yet. -/
theorem Consistent.connect {a : OpenSSLStreamAdapter Cert} (h : a.Consistent x509Digest auth)
    (early : a.state = .none ∨ a.state = .wait)
    : ({ a with state := .connecting } : OpenSSLStreamAdapter Cert).Consistent x509Digest auth := {
  clientAuth := h.clientAuth
  digestNonempty := h.digestNonempty
  unconfigured := h.unconfigured
  verified := by simp [(h.untouched early).2.1]
  armed := fun _ => rfl
  untouched := by simp
  released := by simp
}

/-- While connecting, the OpenSSL pointers may be anything. -/
theorem Consistent.setPointers {a : OpenSSLStreamAdapter Cert} (h : a.Consistent x509Digest auth)
    (connecting : a.state = .connecting) (ssl sslCtx : Bool)
    : ({ a with ssl, sslCtx } : OpenSSLStreamAdapter Cert).Consistent x509Digest auth :=
  { h with untouched := by simp [connecting], released := by simp [connecting] }

/-- The first handshake step is sound, whichever of its allocations fails. -/
theorem Consistent.beginSSL {a : OpenSSLStreamAdapter Cert} (h : a.Consistent x509Digest auth)
    (connecting : a.state = .connecting) (setup : SSLSetup Cert)
    : (a.beginSSL x509Digest setup).Sound x509Digest auth := by
  have failure {a : OpenSSLStreamAdapter Cert} (h : a.Consistent x509Digest auth)
      : (⟨a, [⟨.handshakeStep (-1), a⟩], -1⟩ : Outcome Cert Int).Sound x509Digest auth := by
    refine ⟨h, ?_⟩
    intro entry member
    obtain rfl := List.mem_singleton.mp member
    exact h.entry (by simp) rfl
  unfold OpenSSLStreamAdapter.beginSSL
  dsimp only
  rw [if_neg (by simp [connecting])]
  split_ifs
  · exact failure (h.setPointers connecting a.ssl _)
  · exact failure (h.setPointers connecting a.ssl _)
  · exact failure (h.setPointers connecting _ _)
  · exact failure (h.setPointers connecting _ _)
  · exact (h.setPointers connecting setup.sslNew (a.setupSSLContext setup)).continueSSL
      connecting setup.handshake

/-- Starting SSL is sound in every state. -/
theorem Consistent.startSSL {a : OpenSSLStreamAdapter Cert} (h : a.Consistent x509Digest auth)
    (streamState : StreamState) (setup : SSLSetup Cert)
    : (a.startSSL x509Digest streamState setup).Sound x509Digest auth := by
  have called : (⟨.startSSL, a⟩ : Entry Cert).Sound x509Digest auth := h.entry (by simp) rfl
  unfold OpenSSLStreamAdapter.startSSL
  dsimp only
  split_ifs with started waiting failed
  · refine ⟨h, ?_⟩
    simp only [List.forall_mem_cons]
    exact ⟨called, h.entry (by simp) rfl, List.forall_mem_nil _⟩
  · have early : a.state = .none := by simpa using started
    have waits
        : ({ a with state := .wait } : OpenSSLStreamAdapter Cert).Consistent x509Digest auth := {
      clientAuth := h.clientAuth
      digestNonempty := h.digestNonempty
      unconfigured := h.unconfigured
      verified := by simp [(h.untouched (Or.inl early)).2.1]
      armed := fun running => by simp [h.armed running] at early
      untouched := fun _ => h.untouched (Or.inl early)
      released := by simp
    }
    refine ⟨waits, ?_⟩
    simp only [List.forall_mem_cons]
    exact ⟨called, waits.entry (by simp) rfl, List.forall_mem_nil _⟩
  all_goals
    have early : a.state = .none := by simpa using started
    have begun := (h.connect (Or.inl early)).beginSSL rfl setup
  · have reported := begun.consistent.errorInfo
      (OpenSSLStreamAdapter.beginSSL x509Digest { a with state := .connecting } setup).value false
    refine ⟨reported.consistent, ?_⟩
    simp only [List.forall_mem_append, List.forall_mem_cons]
    exact ⟨⟨⟨called, begun.trace⟩, reported.trace⟩, reported.consistent.entry (by simp) rfl,
      List.forall_mem_nil _⟩
  · refine ⟨begun.consistent, ?_⟩
    simp only [List.forall_mem_append, List.forall_mem_cons]
    exact ⟨⟨called, begun.trace⟩, begun.consistent.entry (by simp) rfl, List.forall_mem_nil _⟩

/-- The adapter with another digest configured. -/
def withDigest (a : OpenSSLStreamAdapter Cert) (digestAlg : String) (digestVal : List UInt8)
    : OpenSSLStreamAdapter Cert :=
  {
    a with
    peerCertificateDigestValue := digestVal
    peerCertificateDigestAlgorithm := digestAlg
  }

/-- All that `set_peer_certificate_digest` can do: refuse a malformed digest, configure a
well-formed one, and with a certificate on record accept or reject that certificate.
-/
theorem setPeerCertificateDigest_cases (a : OpenSSLStreamAdapter Cert) (digestAlg : String)
    (digestVal : List UInt8)
    : (getDigestSize digestAlg ≠ some digestVal.length
        ∧ (a.setPeerCertificateDigest x509Digest digestAlg digestVal).adapter = a
        ∧ (a.setPeerCertificateDigest x509Digest digestAlg digestVal).trace = [])
      ∨ (getDigestSize digestAlg = some digestVal.length
        ∧ a.peerCertificate = none
        ∧ a.setPeerCertificateDigest x509Digest digestAlg digestVal
          = ⟨a.withDigest digestAlg digestVal, [], true, .none⟩)
      ∨ (getDigestSize digestAlg = some digestVal.length
        ∧ ∃ cert,
            a.peerCertificate = some cert
            ∧ (a.withDigest digestAlg digestVal).DigestMatches x509Digest cert
            ∧ a.setPeerCertificateDigest x509Digest digestAlg digestVal
              = ⟨{ a.withDigest digestAlg digestVal with peerCertificateVerified := true },
                  [], true, .none⟩)
      ∨ (getDigestSize digestAlg = some digestVal.length
        ∧ ∃ cert,
            a.peerCertificate = some cert
            ∧ ¬ (a.withDigest digestAlg digestVal).DigestMatches x509Digest cert
            ∧ a.setPeerCertificateDigest x509Digest digestAlg digestVal
              = ⟨((a.withDigest digestAlg digestVal).errorInfo (-1) false).adapter,
                  [], false, .verificationFailed⟩) := by
  cases found : getDigestSize digestAlg with
  | none => simp [setPeerCertificateDigest, found]
  | some expectedLen =>
      by_cases right : expectedLen = digestVal.length
      · subst right
        have hasDigest : (a.withDigest digestAlg digestVal).hasPeerCertificateDigest = true := by
          have known := getDigestSize_ne_empty found
          have positive := List.length_pos_iff.mp (getDigestSize_pos found)
          simp [hasPeerCertificateDigest, withDigest, known, positive]
        cases recorded : a.peerCertificate with
        | none => simp [setPeerCertificateDigest, found, recorded, withDigest]
        | some cert =>
            have checked := @verifyPeerCertificate_some _ x509Digest
              (a.withDigest digestAlg digestVal) cert recorded
            by_cases same : (a.withDigest digestAlg digestVal).DigestMatches x509Digest cert
            · rw [if_pos ⟨hasDigest, same⟩] at checked
              refine Or.inr (Or.inr (Or.inl ⟨rfl, cert, rfl, same, ?_⟩))
              simp only [withDigest, recorded] at checked
              simp only [setPeerCertificateDigest, found, ne_eq, not_true_eq_false, if_false,
                recorded, checked, withDigest]
            · rw [if_neg (fun both => same both.2)] at checked
              refine Or.inr (Or.inr (Or.inr ⟨rfl, cert, rfl, same, ?_⟩))
              simp only [withDigest, recorded] at checked
              simp only [setPeerCertificateDigest, found, ne_eq, not_true_eq_false, if_false,
                recorded, checked, withDigest]
              rfl
      · simp [setPeerCertificateDigest, found, right]

/-- Replacing the digest is sound: a certificate recorded earlier is compared with the new
digest at once, and the adapter is torn down when it does not match.
-/
theorem Consistent.setPeerCertificateDigest {a : OpenSSLStreamAdapter Cert}
    (h : a.Consistent x509Digest auth) (digestAlg : String) (digestVal : List UInt8)
    : (a.setPeerCertificateDigest x509Digest digestAlg digestVal).Sound x509Digest auth := by
  have nonempty (found : getDigestSize digestAlg = some digestVal.length) : digestVal ≠ [] :=
    List.length_pos_iff.mp (getDigestSize_pos found)
  rcases @setPeerCertificateDigest_cases _ x509Digest a digestAlg digestVal
    with ⟨-, same, silent⟩ | ⟨found, absent, set⟩ | ⟨found, cert, recorded, matched, set⟩
      | ⟨found, cert, recorded, -, set⟩
  · exact ⟨by rwa [same], by simp [silent]⟩
  · rw [set]
    refine ⟨{ h with
      digestNonempty := fun _ => nonempty found
      unconfigured := fun unknown => absurd unknown (getDigestSize_ne_empty found)
      verified := ?_ }, by simp⟩
    intro accepted
    rcases h.verified accepted with failed | closed | ⟨cert, present, _⟩
    · exact Or.inl failed
    · exact Or.inr (Or.inl closed)
    · simp [absent] at present
  · rw [set]
    refine ⟨{
      clientAuth := h.clientAuth
      digestNonempty := fun _ => nonempty found
      unconfigured := fun unknown => absurd unknown (getDigestSize_ne_empty found)
      verified := fun _ => Or.inr (Or.inr ⟨cert, recorded, matched⟩)
      armed := h.armed
      untouched := ?_
      released := ?_ }, by simp⟩
    · intro early
      simp [(h.untouched early).1] at recorded
    · intro finished
      simp [(h.released finished).1] at recorded
  · -- The flag may still be set from an earlier digest: it is the torn-down adapter that is
    -- consistent, the one in between need not be.
    rw [set]
    exact ⟨{
      clientAuth := h.clientAuth
      digestNonempty := fun _ => nonempty found
      unconfigured := fun unknown => absurd unknown (getDigestSize_ne_empty found)
      verified := fun _ => Or.inl rfl
      armed := by simp [OpenSSLStreamAdapter.errorInfo, OpenSSLStreamAdapter.cleanup]
      untouched := by simp [OpenSSLStreamAdapter.errorInfo, OpenSSLStreamAdapter.cleanup]
      released := fun _ => ⟨rfl, rfl, rfl⟩
    }, by simp⟩

/-- The `SE_OPEN` branch is sound. -/
theorem Consistent.onOpen {a : OpenSSLStreamAdapter Cert} (h : a.Consistent x509Digest auth)
    (events : StreamEvents) (setup : SSLSetup Cert)
    : (a.onOpen x509Digest events setup).Sound x509Digest auth := by
  unfold OpenSSLStreamAdapter.onOpen
  dsimp only
  split_ifs with closed forwarded failed
  · exact ⟨h, by simp⟩
  · exact ⟨h, by simp⟩
  all_goals
    have waiting : a.state = .wait := by simpa using forwarded
    have begun := (h.connect (Or.inr waiting)).beginSSL rfl setup
  · have reported := begun.consistent.errorInfo
      (OpenSSLStreamAdapter.beginSSL x509Digest { a with state := .connecting } setup).value true
    exact ⟨reported.consistent, List.forall_mem_append.mpr ⟨begun.trace, reported.trace⟩⟩
  · exact ⟨begun.consistent, begun.trace⟩

/-- The `SE_READ`/`SE_WRITE` branch is sound. -/
theorem Consistent.onReadWrite {a : OpenSSLStreamAdapter Cert} (h : a.Consistent x509Digest auth)
    (events : StreamEvents) (handshake : Handshake Cert)
    : (a.onReadWrite x509Digest events handshake).Sound x509Digest auth := by
  unfold OpenSSLStreamAdapter.onReadWrite
  split_ifs with quiet
  · exact ⟨h, by simp⟩
  · cases state : a.state with
    | none => exact ⟨h, by simp⟩
    | wait => exact ⟨h, by simp⟩
    | error => exact ⟨h, by simp⟩
    | closed => exact ⟨h, by simp⟩
    | connected => exact ⟨h, by simp⟩
    | connecting =>
        have continued := h.continueSSL state handshake
        dsimp only
        split_ifs with failed
        · have reported := continued.consistent.errorInfo
            (a.continueSSL x509Digest handshake).value true
          exact ⟨reported.consistent,
            List.forall_mem_append.mpr ⟨continued.trace, reported.trace⟩⟩
        · exact ⟨continued.consistent, continued.trace⟩

/-- Handling a stream event is sound, by its three branches in turn. -/
theorem Consistent.onEvent {a : OpenSSLStreamAdapter Cert} (h : a.Consistent x509Digest auth)
    (events : StreamEvents) (err : Int) (setup : SSLSetup Cert) (handshake : Handshake Cert)
    : (a.onEvent x509Digest events err setup handshake).Sound x509Digest auth := by
  have opening := h.onOpen events setup
  have ready := opening.consistent.onReadWrite events handshake
  unfold OpenSSLStreamAdapter.onEvent
  dsimp only
  split_ifs with openFailed readFailed
  · exact ⟨opening.consistent, opening.trace⟩
  · exact ⟨ready.consistent, List.forall_mem_append.mpr ⟨opening.trace, ready.trace⟩⟩
  all_goals refine ⟨?_, List.forall_mem_append.mpr
    ⟨List.forall_mem_append.mpr ⟨opening.trace, ready.trace⟩, ?_⟩⟩
  · exact ready.consistent.cleanup
  · rw [List.forall_mem_singleton]
    exact ready.consistent.cleanup.entry (by simp) rfl
  · exact ready.consistent.cleanup
  · exact List.forall_mem_nil _
  · exact ready.consistent
  · rw [List.forall_mem_singleton]
    exact ready.consistent.entry (by simp) rfl
  · exact ready.consistent
  · exact List.forall_mem_nil _

/-- The timeout callback is sound while the timer is armed, since the adapter is then
connecting.
-/
theorem Consistent.dtlsHandshakeTimeoutCallback {a : OpenSSLStreamAdapter Cert}
    (h : a.Consistent x509Digest auth) (armed : a.handshakeTimerWatcher = .armed)
    (handshake : Handshake Cert)
    : (a.dtlsHandshakeTimeoutCallback x509Digest handshake).Sound x509Digest auth := by
  have connecting : a.stopTimer.state = .connecting := by rw [stopTimer_state, h.armed armed]
  have continued := h.stopTimer.continueSSL connecting handshake
  exact ⟨continued.consistent, continued.trace⟩

/-- Choosing the SRTP ciphers changes nothing else. -/
theorem setDtlsSrtpCryptoSuites_frame (a : OpenSSLStreamAdapter Cert) (ciphers : List Int)
    : ∃ srtpCiphers, (a.setDtlsSrtpCryptoSuites ciphers).1 = { a with srtpCiphers } := by
  unfold setDtlsSrtpCryptoSuites
  split_ifs
  · exact ⟨_, rfl⟩
  · split
    · exact ⟨_, rfl⟩
    · split_ifs <;> exact ⟨_, rfl⟩

/-- Choosing the SRTP ciphers keeps the invariant. -/
theorem Consistent.setDtlsSrtpCryptoSuites {a : OpenSSLStreamAdapter Cert}
    (h : a.Consistent x509Digest auth) (ciphers : List Int)
    : (a.setDtlsSrtpCryptoSuites ciphers).1.Consistent x509Digest auth := by
  obtain ⟨srtpCiphers, framed⟩ := setDtlsSrtpCryptoSuites_frame a ciphers
  rw [framed]
  exact { h with }

/-- Every action on a consistent adapter is sound, by the cases of the action. -/
theorem Consistent.perform {a : OpenSSLStreamAdapter Cert} (h : a.Consistent x509Digest auth)
    (streamState : StreamState) {op : Op Cert}
    (kept : auth = true → op ≠ .setClientAuthEnabled false)
    : (a.perform x509Digest streamState op).Sound x509Digest auth := by
  cases op with
  | startSSL setup =>
      have started := h.startSSL streamState setup
      exact ⟨started.consistent, started.trace⟩
  | setPeerCertificateDigest digestAlg digestVal =>
      have set := h.setPeerCertificateDigest digestAlg digestVal
      exact ⟨set.consistent, set.trace⟩
  | onEvent events err streamState setup handshake => exact h.onEvent events err setup handshake
  | dtlsHandshakeTimeout handshake =>
      unfold OpenSSLStreamAdapter.perform
      split_ifs with armed
      · exact h.dtlsHandshakeTimeoutCallback armed handshake
      · exact ⟨h, by simp⟩
  | setClientAuthEnabled enabled =>
      refine ⟨{ h with clientAuth := ?_ }, List.forall_mem_nil _⟩
      intro required
      change enabled = true
      simpa using kept required
  | setIdentity identity => exact ⟨{ h with }, List.forall_mem_nil _⟩
  | setDtlsSrtpCryptoSuites ciphers =>
      exact ⟨h.setDtlsSrtpCryptoSuites ciphers, List.forall_mem_nil _⟩
  | destroy => exact ⟨h.cleanup, List.forall_mem_nil _⟩

end OpenSSLStreamAdapter

-----------------------------------------------------------------------------------------
-- The invariant holds along every run
-----------------------------------------------------------------------------------------

/-- The adapter is consistent and so is every moment on its trace. -/
structure System.Sound (x509Digest : Cert → EvpMd → List UInt8) (auth : Bool)
    (sys : System Cert)
    : Prop where
  consistent : sys.adapter.Consistent x509Digest auth
  trace : ∀ entry ∈ sys.trace, entry.Sound x509Digest auth

/-- A fresh adapter is sound. -/
theorem System.initial_sound (streamState : StreamState)
    : (System.initial Cert streamState).Sound x509Digest auth := by
  refine ⟨?_, List.forall_mem_nil _⟩
  constructor <;> simp [System.initial]

/-- Every step keeps the system sound, since every action does. -/
theorem System.Sound.step {sys : System Cert} (h : sys.Sound x509Digest auth) {op : Op Cert}
    (kept : auth = true → op ≠ .setClientAuthEnabled false)
    : (sys.step x509Digest op).Sound x509Digest auth := by
  have performed := h.consistent.perform sys.streamState kept
  constructor
  · rw [System.step_adapter]
    split_ifs
    · exact h.consistent
    · exact performed.consistent
  · rw [System.step_trace, List.forall_mem_append]
    refine ⟨h.trace, ?_⟩
    unfold System.stepTrace
    split_ifs
    · exact List.forall_mem_nil _
    · exact performed.trace

/-- Every run is sound, from its initial state by the step lemma. -/
theorem System.run_sound (streamState : StreamState) (ops : List (Op Cert))
    : (System.run x509Digest streamState ops).Sound x509Digest false :=
  runFrom_invariant (fun _ _ h => h.step (by simp)) (System.initial_sound streamState) ops

end RtcBase.SslStream
