import RtcBase.SslStream.Handshake

/-! The adapter only ever moves forward, from the clear through the handshake to its end, and
raises its own `SE_OPEN` at most once, on the way into the connected state. From then on there
is nothing left to verify.
-/

namespace RtcBase.SslStream

open RtcBase.Library OpenSSLStreamAdapter

variable {Cert : Type} {x509Digest : Cert → EvpMd → List UInt8} {auth : Bool}

/-- How far the adapter has come. -/
def SSLState.rank : SSLState → Nat
  | .none => 0
  | .wait => 1
  | .connecting => 2
  | .connected => 3
  | .error => 4
  | .closed => 4

/-- A piece of a run that moves forward, with at most one own open, between the end of the
handshake and what was before it.
-/
structure Progress (before after : OpenSSLStreamAdapter Cert) (trace : List (Entry Cert))
    : Prop where
  forward : before.state.rank ≤ after.state.rank
  opens
    : trace.countP Entry.ownOpen = 0
      ∨ (trace.countP Entry.ownOpen = 1 ∧ before.state.rank ≤ 2 ∧ 3 ≤ after.state.rank)
  settled
    : before.waitingToVerifyPeerCertificate = false ∨ 0 < trace.countP Entry.ownOpen
      → after.waitingToVerifyPeerCertificate = false

/-- A piece without an own open need only move forward and keep what is verified. -/
theorem Progress.silent {before after : OpenSSLStreamAdapter Cert} {trace : List (Entry Cert)}
    (forward : before.state.rank ≤ after.state.rank) (quiet : trace.countP Entry.ownOpen = 0)
    (kept
      : before.waitingToVerifyPeerCertificate = false
        → after.waitingToVerifyPeerCertificate = false)
    : Progress before after trace := by
  refine ⟨forward, Or.inl quiet, ?_⟩
  intro either
  rcases either with settled | opened
  · exact kept settled
  · omega

/-- A piece that leaves the adapter as it is. -/
theorem Progress.idle (a : OpenSSLStreamAdapter Cert) {trace : List (Entry Cert)}
    (quiet : trace.countP Entry.ownOpen = 0)
    : Progress a a trace :=
  .silent (Nat.le_refl _) quiet id

/-- Pieces of a run compose: an own open in the first leaves none for the second. -/
theorem Progress.trans {first second third : OpenSSLStreamAdapter Cert}
    {earlier later : List (Entry Cert)} (h : Progress first second earlier)
    (next : Progress second third later)
    : Progress first third (earlier ++ later) := by
  refine ⟨Nat.le_trans h.forward next.forward, ?_, ?_⟩
  rotate_left
  · rw [List.countP_append]
    intro either
    rcases either with settled | opened
    · exact next.settled (Or.inl (h.settled (Or.inl settled)))
    · rcases Nat.eq_zero_or_pos (earlier.countP Entry.ownOpen) with none | some
      · exact next.settled (Or.inr (by omega))
      · exact next.settled (Or.inl (h.settled (Or.inr some)))
  rw [List.countP_append]
  rcases h.opens with none | ⟨one, before, reached⟩
  · rcases next.opens with noneLater | ⟨oneLater, middle, reached⟩
    · exact Or.inl (by omega)
    · exact Or.inr ⟨by omega, Nat.le_trans h.forward middle, reached⟩
  · rcases next.opens with noneLater | ⟨-, middle, -⟩
    · exact Or.inr ⟨by omega, before, Nat.le_trans reached next.forward⟩
    · omega

/-- No state is further than the end states. -/
theorem SSLState.rank_le (state : SSLState) : state.rank ≤ 4 := by
  cases state <;> simp [SSLState.rank]

/-- Whether the adapter still waits, where only the recorded certificate, the flag and fields
that do not matter for it have changed.
-/
theorem waiting_of_verified {a b : OpenSSLStreamAdapter Cert}
    (auth : b.clientAuthEnabled = a.clientAuthEnabled)
    (kept : a.peerCertificateVerified = true → b.peerCertificateVerified = true)
    (settled : a.waitingToVerifyPeerCertificate = false)
    : b.waitingToVerifyPeerCertificate = false := by
  revert settled kept
  rw [waitingToVerifyPeerCertificate, waitingToVerifyPeerCertificate, auth]
  cases a.clientAuthEnabled <;> cases a.peerCertificateVerified <;> simp

/-- A verified adapter stays verified through the callbacks, which it answers unseen, by
induction on the calls.
-/
theorem runVerifyCallbacks_verified {a : OpenSSLStreamAdapter Cert}
    (verified : a.peerCertificateVerified = true) (calls : List (VerifyCall Cert))
    : (a.runVerifyCallbacks x509Digest calls).adapter.peerCertificateVerified = true := by
  induction calls with
  | nil => exact verified
  | cons call rest ih =>
      simpa [runVerifyCallbacks, sslVerifyCallback_ignored (Or.inr (Or.inr verified))] using ih

/-- A step of the negotiation unsettles nothing. -/
theorem continueSSL_settled (a : OpenSSLStreamAdapter Cert) (handshake : Handshake Cert)
    (settled : a.waitingToVerifyPeerCertificate = false)
    : (a.continueSSL x509Digest handshake).adapter.waitingToVerifyPeerCertificate = false := by
  have stopped : a.stopTimer.waitingToVerifyPeerCertificate = false := by
    rw [← settled]
    unfold stopTimer
    split <;> rfl
  have verified
      : (a.stopTimer.runVerifyCallbacks x509Digest
          handshake.calls).adapter.waitingToVerifyPeerCertificate = false := by
    obtain ⟨cert, flag, framed⟩ :=
      @runVerifyCallbacks_frame _ x509Digest a.stopTimer handshake.calls
    refine waiting_of_verified ?_ (fun flag => runVerifyCallbacks_verified flag _) stopped
    rw [framed]
  unfold continueSSL
  generalize a.stopTimer.runVerifyCallbacks x509Digest handshake.calls = outcome at verified
  dsimp only
  split_ifs
  · exact verified
  · exact verified
  · split
    · exact verified
    · unfold startTimer
      split_ifs
      · split <;> exact verified
      · exact verified
  all_goals exact verified

/-- The first step of the negotiation unsettles nothing. -/
theorem beginSSL_settled (a : OpenSSLStreamAdapter Cert) (setup : SSLSetup Cert)
    (settled : a.waitingToVerifyPeerCertificate = false)
    : (a.beginSSL x509Digest setup).adapter.waitingToVerifyPeerCertificate = false := by
  unfold beginSSL
  dsimp only
  split_ifs
  · exact settled
  · exact settled
  · exact settled
  · exact settled
  · exact settled
  · exact continueSSL_settled _ setup.handshake settled

/-- A handshake step makes progress from the connecting state. -/
theorem Outcome.FromHandshake.progress {outcome : Outcome Cert Int}
    (h : outcome.FromHandshake) {a : OpenSSLStreamAdapter Cert} (early : a.state.rank ≤ 2)
    (kept
      : a.waitingToVerifyPeerCertificate = false
        → outcome.adapter.waitingToVerifyPeerCertificate = false)
    : Progress a outcome.adapter outcome.trace := by
  rcases h.state with ⟨connecting, quiet⟩ | ⟨-, connected, opens⟩
  · exact .silent (by simpa [connecting, SSLState.rank] using early) quiet kept
  · have reached : 3 ≤ outcome.adapter.state.rank := by simp [connected, SSLState.rank]
    cases waiting : outcome.adapter.waitingToVerifyPeerCertificate with
    | true =>
        rw [waiting, if_pos rfl] at opens
        exact .silent (by omega) opens kept
    | false =>
        rw [waiting, if_neg Bool.false_ne_true] at opens
        exact ⟨by omega, Or.inr ⟨opens, early, reached⟩, fun _ => waiting⟩

/-- Reporting an error ends the adapter in the error state. -/
@[simp] theorem errorInfo_state (a : OpenSSLStreamAdapter Cert) (err : Int) (signal : Bool)
    : (a.errorInfo err signal).adapter.state = .error := by
  simp [errorInfo, cleanup]

/-- Cleaning up leaves the verified flag alone. -/
@[simp] theorem cleanup_waiting (a : OpenSSLStreamAdapter Cert)
    : a.cleanup.waitingToVerifyPeerCertificate = a.waitingToVerifyPeerCertificate := by
  unfold cleanup
  split_ifs <;> rfl

/-- Reporting an error is progress, whatever came before. -/
theorem errorInfo_progress (a : OpenSSLStreamAdapter Cert) (err : Int) (signal : Bool)
    : Progress a (a.errorInfo err signal).adapter (a.errorInfo err signal).trace := by
  refine .silent ?_ ?_ ?_
  · simpa [SSLState.rank] using a.state.rank_le
  · cases signal <;> simp [errorInfo, Entry.ownOpen]
  · exact fun settled => (cleanup_waiting _).trans settled

/-- Cleaning up is progress. -/
theorem cleanup_progress (a : OpenSSLStreamAdapter Cert) : Progress a a.cleanup [] := by
  refine .silent ?_ rfl ?_
  · have finished : a.cleanup.state.rank = 4 := by
      rw [cleanup_state]
      split_ifs <;> rfl
    rw [finished]
    exact a.state.rank_le
  · exact fun settled => (cleanup_waiting a).trans settled

/-- The handshake begun by a waiting or a fresh adapter makes progress. -/
theorem begun_progress {a : OpenSSLStreamAdapter Cert} (early : a.state.rank ≤ 2)
    (setup : SSLSetup Cert)
    : Progress a (a.begun x509Digest setup).adapter (a.begun x509Digest setup).trace := by
  have begun : (a.begun x509Digest setup).FromHandshake := beginSSL_fromHandshake rfl setup
  exact begun.progress early (fun settled => beginSSL_settled _ setup settled)

/-- Starting SSL makes progress. -/
theorem startSSL_progress (a : OpenSSLStreamAdapter Cert) (streamState : StreamState)
    (setup : SSLSetup Cert)
    : Progress a (a.startSSL x509Digest streamState setup).adapter
        (a.startSSL x509Digest streamState setup).trace := by
  have called : Progress a a [⟨.startSSL, a⟩] := .idle a rfl
  have begun (fresh : a.state = .none)
      : Progress a (a.begun x509Digest setup).adapter
          (⟨.startSSL, a⟩ :: (a.begun x509Digest setup).trace) := by
    have early : a.state.rank ≤ 2 := by simp [fresh, SSLState.rank]
    exact called.trans (begun_progress early setup)
  unfold startSSL
  dsimp only
  split_ifs with started waiting failed
  · exact .idle a rfl
  · refine .silent ?_ rfl id
    have fresh : a.state = .none := by simpa using started
    simp [fresh, SSLState.rank]
  · have handshake := begun (by simpa using started)
    exact (handshake.trans (errorInfo_progress _ _ _)).trans (.idle _ rfl)
  · have handshake := begun (by simpa using started)
    exact handshake.trans (.idle _ rfl)

/-- The `SE_OPEN` branch makes progress. -/
theorem onOpen_progress (a : OpenSSLStreamAdapter Cert) (events : StreamEvents)
    (setup : SSLSetup Cert)
    : Progress a (a.onOpen x509Digest events setup).adapter
        (a.onOpen x509Digest events setup).trace := by
  have begun (waiting : a.state = .wait)
      : Progress a (a.begun x509Digest setup).adapter (a.begun x509Digest setup).trace :=
    begun_progress (by simp [waiting, SSLState.rank]) setup
  rcases @onOpen_cases _ x509Digest a events setup
    with ⟨-, same⟩ | ⟨⟨-, waiting⟩, -, same⟩ | ⟨⟨-, waiting⟩, -, same⟩
  · rw [same]
    exact .idle a rfl
  · rw [same]
    exact begun waiting
  · rw [same]
    exact (begun waiting).trans (errorInfo_progress _ _ _)

/-- A step of the negotiation makes progress. -/
theorem continueSSL_progress {a : OpenSSLStreamAdapter Cert} (connecting : a.state = .connecting)
    (handshake : Handshake Cert)
    : Progress a (a.continueSSL x509Digest handshake).adapter
        (a.continueSSL x509Digest handshake).trace := by
  have continued : (a.continueSSL x509Digest handshake).FromHandshake :=
    continueSSL_fromHandshake connecting handshake
  have early : a.state.rank ≤ 2 := by simp [connecting, SSLState.rank]
  exact continued.progress early (fun settled => continueSSL_settled a handshake settled)

/-- The `SE_READ`/`SE_WRITE` branch makes progress. -/
theorem onReadWrite_progress (a : OpenSSLStreamAdapter Cert) (events : StreamEvents)
    (handshake : Handshake Cert)
    : Progress a (a.onReadWrite x509Digest events handshake).adapter
        (a.onReadWrite x509Digest events handshake).trace := by
  rcases @onReadWrite_cases _ x509Digest a events handshake
    with ⟨-, forwarded, same, -⟩ | ⟨⟨-, connecting⟩, -, same⟩ | ⟨⟨-, connecting⟩, -, same⟩
  · rw [same]
    exact .idle a rfl
  · rw [same]
    exact continueSSL_progress connecting handshake
  · rw [same]
    exact (continueSSL_progress connecting handshake).trans (errorInfo_progress _ _ _)

/-- Handling a stream event makes progress, by its branches in turn. -/
theorem onEvent_progress (a : OpenSSLStreamAdapter Cert) (events : StreamEvents) (err : Int)
    (setup : SSLSetup Cert) (handshake : Handshake Cert)
    : Progress a (a.onEvent x509Digest events err setup handshake).adapter
        (a.onEvent x509Digest events err setup handshake).trace := by
  have opening := @onOpen_progress _ x509Digest a events setup
  have ready := opening.trans
    (@onReadWrite_progress _ x509Digest (a.onOpen x509Digest events setup).adapter events
      handshake)
  have closing := ready.trans (cleanup_progress _)
  rw [List.append_nil] at closing
  unfold onEvent
  dsimp only
  split_ifs with openFailed readFailed
  · exact opening
  · exact ready
  · exact closing.trans (.idle _ rfl)
  · exact closing.trans (.idle _ rfl)
  · exact ready.trans (.idle _ rfl)
  · exact ready.trans (.idle _ rfl)

/-- Every action makes progress while client authentication is enabled. -/
theorem OpenSSLStreamAdapter.Consistent.perform_progress {a : OpenSSLStreamAdapter Cert}
    (h : a.Consistent x509Digest true) (streamState : StreamState) (op : Op Cert)
    : Progress a (a.perform x509Digest streamState op).adapter
        (a.perform x509Digest streamState op).trace := by
  cases op with
  | startSSL setup => exact startSSL_progress a streamState setup
  | onEvent events err streamState setup handshake =>
      exact onEvent_progress a events err setup handshake
  | setPeerCertificateDigest digestAlg digestVal =>
      change Progress a (a.setPeerCertificateDigest x509Digest digestAlg digestVal).adapter
        (a.setPeerCertificateDigest x509Digest digestAlg digestVal).trace
      rcases @setPeerCertificateDigest_cases _ x509Digest a digestAlg digestVal
        with ⟨-, same, silent⟩ | ⟨-, -, set⟩ | ⟨-, cert, -, -, set⟩ | ⟨-, cert, -, -, set⟩
      · rw [same, silent]
        exact .idle a rfl
      · rw [set]
        exact .silent (Nat.le_refl _) rfl id
      · rw [set]
        exact .silent (Nat.le_refl _) rfl (waiting_of_verified rfl (fun _ => rfl))
      · rw [set]
        have failed := errorInfo_progress (a.withDigest digestAlg digestVal) (-1) false
        exact .silent failed.forward rfl (fun settled => failed.settled (Or.inl settled))
  | dtlsHandshakeTimeout handshake =>
      unfold OpenSSLStreamAdapter.perform
      split_ifs with armed
      · have connecting : a.stopTimer.state = .connecting := by
          rw [stopTimer_state, h.armed armed]
        have stopped : Progress a a.stopTimer [] := by
          refine .silent (by simp) rfl ?_
          unfold OpenSSLStreamAdapter.stopTimer
          split <;> exact id
        exact stopped.trans (continueSSL_progress connecting handshake)
      · exact .idle a rfl
  | setClientAuthEnabled enabled =>
      refine .silent (Nat.le_refl _) rfl ?_
      intro settled
      have verified : a.peerCertificateVerified = true := by
        simpa [waitingToVerifyPeerCertificate, h.clientAuth] using settled
      simp [OpenSSLStreamAdapter.perform, waitingToVerifyPeerCertificate, verified]
  | setIdentity identity => exact .silent (Nat.le_refl _) rfl id
  | setDtlsSrtpCryptoSuites ciphers =>
      obtain ⟨srtpCiphers, framed⟩ := setDtlsSrtpCryptoSuites_frame a ciphers
      simp only [OpenSSLStreamAdapter.perform, framed]
      exact .silent (Nat.le_refl _) rfl id
  | destroy => exact cleanup_progress a

end RtcBase.SslStream
