import RtcBase.SslStream.Consistency

/-! What a handshake step leaves behind: only entries of its own kind on the trace, a failed
entry exactly when it returns an error, and at most one `SE_OPEN`, raised on reaching the
connected state with nothing left to verify.
-/

namespace RtcBase.SslStream

open OpenSSLStreamAdapter

variable {Cert : Type} {x509Digest : Cert → EvpMd → List UInt8} {auth : Bool}

/-- An entry that `begin_SSL` and `continue_SSL` leave on the trace. -/
inductive Entry.FromHandshake : Entry Cert → Prop where
  | verifyCallback (call : VerifyCall Cert) (ret : Int) (a : OpenSSLStreamAdapter Cert)
    : FromHandshake ⟨.verifyCallback call ret, a⟩
  | signalSslHandshakeError (error : SSLHandshakeError) (a : OpenSSLStreamAdapter Cert)
    : FromHandshake ⟨.signalSslHandshakeError error, a⟩
  | handshakeStep (ret : Int) (a : OpenSSLStreamAdapter Cert)
    : FromHandshake ⟨.handshakeStep ret, a⟩
  | ownOpen (a : OpenSSLStreamAdapter Cert)
    : FromHandshake
        ⟨.signalEvent .continueSSL { seOpen := true, seRead := true, seWrite := true } 0, a⟩

/-- A handshake step opens the stream only by its own `SE_OPEN`. -/
theorem Entry.FromHandshake.signalsOpen {entry : Entry Cert} (h : entry.FromHandshake)
    : entry.signalsOpen = entry.ownOpen := by
  cases h <;> rfl

/-- A handshake step announces data only together with its own `SE_OPEN`. -/
theorem Entry.FromHandshake.signalsReady {entry : Entry Cert} (h : entry.FromHandshake)
    : entry.signalsReady = entry.ownOpen := by
  cases h <;> rfl

/-- A handshake step never closes the stream by itself. -/
theorem Entry.FromHandshake.signalsClose {entry : Entry Cert} (h : entry.FromHandshake)
    : entry.signalsClose = false := by
  cases h <;> rfl

/-- A handshake step neither calls `start_SSL` nor returns from it. -/
theorem Entry.FromHandshake.start {entry : Entry Cert} (h : entry.FromHandshake)
    : entry.startCalled = false ∧ entry.startSucceeded = false := by
  cases h <;> exact ⟨rfl, rfl⟩

/-- The outcome of a handshake step that was taken while connecting. -/
structure Outcome.FromHandshake (outcome : Outcome Cert Int) : Prop where
  entries : ∀ entry ∈ outcome.trace, entry.FromHandshake
  failed : outcome.trace.any Entry.handshakeFailed = true ↔ outcome.value ≠ 0
  state
    : (outcome.adapter.state = .connecting ∧ outcome.trace.countP Entry.ownOpen = 0)
      ∨ (outcome.value = 0
        ∧ outcome.adapter.state = .connected
        ∧ outcome.trace.countP Entry.ownOpen
          = if outcome.adapter.waitingToVerifyPeerCertificate then 0 else 1)

/-- The opens of a handshake step are the adapter's own. -/
theorem Outcome.FromHandshake.countP_signalsOpen {outcome : Outcome Cert Int}
    (h : outcome.FromHandshake)
    : outcome.trace.countP Entry.signalsOpen = outcome.trace.countP Entry.ownOpen := by
  apply List.countP_congr
  intro entry member
  rw [(h.entries entry member).signalsOpen]

/-- What `SSL_get_error` says after this handshake step. -/
def OpenSSLStreamAdapter.sslError (x509Digest : Cert → EvpMd → List UInt8)
    (a : OpenSSLStreamAdapter Cert) (handshake : Handshake Cert)
    : Int :=
  handshake.getError (a.stopTimer.runVerifyCallbacks x509Digest handshake.calls).value

/-- Callback entries are handshake entries, and none of them is an open or a failure. -/
theorem runVerifyCallbacks_fromHandshake (a : OpenSSLStreamAdapter Cert)
    (calls : List (VerifyCall Cert))
    : (∀ entry ∈ (a.runVerifyCallbacks x509Digest calls).trace, entry.FromHandshake)
      ∧ (a.runVerifyCallbacks x509Digest calls).trace.countP Entry.ownOpen = 0
      ∧ (a.runVerifyCallbacks x509Digest calls).trace.any Entry.handshakeFailed = false := by
  have outputs := @OpenSSLStreamAdapter.runVerifyCallbacks_output _ x509Digest a calls
  refine ⟨?_, ?_, ?_⟩
  · intro ⟨output, adapter⟩ member
    obtain ⟨call, ret, rfl⟩ := outputs _ member
    exact .verifyCallback call ret adapter
  · rw [List.countP_eq_zero]
    intro entry member
    obtain ⟨call, ret, callback⟩ := outputs entry member
    simp [Entry.ownOpen, callback]
  · rw [List.any_eq_false]
    intro entry member
    obtain ⟨call, ret, callback⟩ := outputs entry member
    simp [Entry.handshakeFailed, callback]

/-- Only the entries after the callbacks decide what a handshake step did. -/
theorem Outcome.FromHandshake.of_tail {adapter : OpenSSLStreamAdapter Cert}
    {callbacks tail : List (Entry Cert)} {value : Int}
    (quiet
      : (∀ entry ∈ callbacks, entry.FromHandshake)
        ∧ callbacks.countP Entry.ownOpen = 0
        ∧ callbacks.any Entry.handshakeFailed = false)
    (entries : ∀ entry ∈ tail, entry.FromHandshake)
    (failed : tail.any Entry.handshakeFailed = true ↔ value ≠ 0)
    (state
      : (adapter.state = .connecting ∧ tail.countP Entry.ownOpen = 0)
        ∨ (value = 0
          ∧ adapter.state = .connected
          ∧ tail.countP Entry.ownOpen
            = if adapter.waitingToVerifyPeerCertificate then 0 else 1))
    : (⟨adapter, callbacks ++ tail, value⟩ : Outcome Cert Int).FromHandshake := by
  obtain ⟨before, noOpen, noFailure⟩ := quiet
  refine ⟨List.forall_mem_append.mpr ⟨before, entries⟩, ?_, ?_⟩
  · simpa only [List.any_append, noFailure, Bool.false_or] using failed
  · simpa only [List.countP_append, noOpen, Nat.zero_add] using state

/-- A step of the negotiation taken while connecting, by the four answers of OpenSSL. -/
theorem continueSSL_fromHandshake {a : OpenSSLStreamAdapter Cert}
    (connecting : a.state = .connecting) (handshake : Handshake Cert)
    : (a.continueSSL x509Digest handshake).FromHandshake := by
  have quiet := @runVerifyCallbacks_fromHandshake _ x509Digest a.stopTimer handshake.calls
  obtain ⟨cert, flag, framed⟩ :=
    @OpenSSLStreamAdapter.runVerifyCallbacks_frame _ x509Digest a.stopTimer handshake.calls
  unfold OpenSSLStreamAdapter.continueSSL
  generalize a.stopTimer.runVerifyCallbacks x509Digest handshake.calls = verified at quiet framed
  have state : verified.adapter.state = .connecting := by
    rw [framed]
    exact (OpenSSLStreamAdapter.stopTimer_state a).trans connecting
  dsimp only
  split_ifs with completed waiting wantRead wantWrite _ nonzero nonzero
  · rw [List.append_nil]
    refine .of_tail quiet ?_ (by simp [Entry.handshakeFailed]) (Or.inr ⟨rfl, rfl, ?_⟩)
    · exact List.forall_mem_singleton.mpr (.handshakeStep 0 _)
    · rw [if_pos waiting]
      rfl
  · rw [List.append_assoc]
    refine .of_tail quiet ?_ (by simp [Entry.handshakeFailed]) (Or.inr ⟨rfl, rfl, ?_⟩)
    · exact List.forall_mem_cons.mpr
        ⟨.ownOpen _, List.forall_mem_singleton.mpr (.handshakeStep 0 _)⟩
    · rw [if_neg waiting]
      rfl
  · refine .of_tail quiet (List.forall_mem_singleton.mpr (.handshakeStep 0 _))
      (by simp [Entry.handshakeFailed]) (Or.inl ⟨?_, rfl⟩)
    split
    · exact state
    · split_ifs
      · rw [OpenSSLStreamAdapter.startTimer_state, state]
      · exact state
  · exact .of_tail quiet (List.forall_mem_singleton.mpr (.handshakeStep 0 _))
      (by simp [Entry.handshakeFailed]) (Or.inl ⟨state, rfl⟩)
  all_goals
    refine .of_tail quiet ?_ (by simp_all [Entry.handshakeFailed]) (Or.inl ⟨state, rfl⟩)
    exact List.forall_mem_cons.mpr
      ⟨.signalSslHandshakeError _ _, List.forall_mem_singleton.mpr (.handshakeStep _ _)⟩

/-- A handshake step returns an error exactly when OpenSSL neither finishes nor waits. -/
theorem continueSSL_value_eq_zero (a : OpenSSLStreamAdapter Cert) (handshake : Handshake Cert)
    : (a.continueSSL x509Digest handshake).value = 0
      ↔ a.sslError x509Digest handshake = sslErrorNone
        ∨ a.sslError x509Digest handshake = sslErrorWantRead
        ∨ a.sslError x509Digest handshake = sslErrorWantWrite := by
  unfold OpenSSLStreamAdapter.continueSSL OpenSSLStreamAdapter.sslError
  dsimp only
  split_ifs <;> simp_all [sslErrorNone]

/-- The first handshake step, including the failures before OpenSSL is asked. -/
theorem beginSSL_fromHandshake {a : OpenSSLStreamAdapter Cert}
    (connecting : a.state = .connecting) (setup : SSLSetup Cert)
    : (a.beginSSL x509Digest setup).FromHandshake := by
  have failure {a : OpenSSLStreamAdapter Cert} (connecting : a.state = .connecting)
      : (⟨a, [⟨.handshakeStep (-1), a⟩], -1⟩ : Outcome Cert Int).FromHandshake :=
    ⟨List.forall_mem_singleton.mpr (.handshakeStep _ _), by simp [Entry.handshakeFailed],
      Or.inl ⟨connecting, rfl⟩⟩
  unfold OpenSSLStreamAdapter.beginSSL
  dsimp only
  rw [if_neg (by simp [connecting])]
  split_ifs
  · exact failure connecting
  · exact failure connecting
  · exact failure connecting
  · exact failure connecting
  · refine continueSSL_fromHandshake ?_ setup.handshake
    exact connecting

-----------------------------------------------------------------------------------------
-- Where stream events and `start_SSL` drive the handshake
-----------------------------------------------------------------------------------------

/-- The handshake begun by a waiting or a fresh adapter. -/
abbrev OpenSSLStreamAdapter.begun (x509Digest : Cert → EvpMd → List UInt8)
    (a : OpenSSLStreamAdapter Cert) (setup : SSLSetup Cert)
    : Outcome Cert Int :=
  OpenSSLStreamAdapter.beginSSL x509Digest { a with state := .connecting } setup

/-- All that the `SE_OPEN` branch can do: pass the event on, or begin the handshake of a waiting
adapter with or without success.
-/
theorem onOpen_cases (a : OpenSSLStreamAdapter Cert) (events : StreamEvents)
    (setup : SSLSetup Cert)
    : (¬ (events.seOpen = true ∧ a.state = .wait)
        ∧ a.onOpen x509Digest events setup = ⟨a, [], { seOpen := events.seOpen }, false⟩)
      ∨ ((events.seOpen = true ∧ a.state = .wait)
        ∧ (a.begun x509Digest setup).value = 0
        ∧ a.onOpen x509Digest events setup
          = ⟨(a.begun x509Digest setup).adapter, (a.begun x509Digest setup).trace, {}, false⟩)
      ∨ ((events.seOpen = true ∧ a.state = .wait)
        ∧ (a.begun x509Digest setup).value ≠ 0
        ∧ a.onOpen x509Digest events setup
          = ⟨((a.begun x509Digest setup).adapter.errorInfo
                (a.begun x509Digest setup).value true).adapter,
              (a.begun x509Digest setup).trace
                ++ ((a.begun x509Digest setup).adapter.errorInfo
                    (a.begun x509Digest setup).value true).trace,
              {}, true⟩) := by
  by_cases waiting : events.seOpen = true ∧ a.state = .wait
  · obtain ⟨opened, wait⟩ := waiting
    by_cases failed : (a.begun x509Digest setup).value = 0
    · refine Or.inr (Or.inl ⟨⟨opened, wait⟩, failed, ?_⟩)
      simp [OpenSSLStreamAdapter.onOpen, opened, wait, failed]
    · refine Or.inr (Or.inr ⟨⟨opened, wait⟩, failed, ?_⟩)
      simp [OpenSSLStreamAdapter.onOpen, opened, wait, failed]
  · refine Or.inl ⟨waiting, ?_⟩
    unfold OpenSSLStreamAdapter.onOpen
    cases opened : events.seOpen with
    | false => simp
    | true => simp_all

/-- All that the `SE_READ`/`SE_WRITE` branch can do: collect events to pass on, which it does in
the clear and when connected, or continue the handshake with or without success.
-/
theorem onReadWrite_cases (a : OpenSSLStreamAdapter Cert) (events : StreamEvents)
    (handshake : Handshake Cert)
    : (¬ ((events.seRead || events.seWrite) = true ∧ a.state = .connecting)
        ∧ ∃ forwarded : StreamEvents,
            a.onReadWrite x509Digest events handshake = ⟨a, [], forwarded, false⟩
            ∧ ((forwarded.seRead || forwarded.seWrite) = true
              ↔ (events.seRead || events.seWrite) = true
                ∧ (a.state = .none ∨ a.state = .connected)))
      ∨ (((events.seRead || events.seWrite) = true ∧ a.state = .connecting)
        ∧ (a.continueSSL x509Digest handshake).value = 0
        ∧ a.onReadWrite x509Digest events handshake
          = ⟨(a.continueSSL x509Digest handshake).adapter,
              (a.continueSSL x509Digest handshake).trace, {}, false⟩)
      ∨ (((events.seRead || events.seWrite) = true ∧ a.state = .connecting)
        ∧ (a.continueSSL x509Digest handshake).value ≠ 0
        ∧ a.onReadWrite x509Digest events handshake
          = ⟨((a.continueSSL x509Digest handshake).adapter.errorInfo
                (a.continueSSL x509Digest handshake).value true).adapter,
              (a.continueSSL x509Digest handshake).trace
                ++ ((a.continueSSL x509Digest handshake).adapter.errorInfo
                    (a.continueSSL x509Digest handshake).value true).trace,
              {}, true⟩) := by
  cases ready : (events.seRead || events.seWrite) with
  | false =>
      refine Or.inl ⟨by simp, {}, ?_, by simp⟩
      simp [OpenSSLStreamAdapter.onReadWrite, ready]
  | true =>
      cases state : a.state with
      | connecting =>
          by_cases failed : (a.continueSSL x509Digest handshake).value = 0
          · refine Or.inr (Or.inl ⟨by simp, failed, ?_⟩)
            simp [OpenSSLStreamAdapter.onReadWrite, ready, state, failed]
          · refine Or.inr (Or.inr ⟨by simp, failed, ?_⟩)
            simp [OpenSSLStreamAdapter.onReadWrite, ready, state, failed]
      | connected =>
          refine Or.inl ⟨by simp, _, by
            simp only [OpenSSLStreamAdapter.onReadWrite, ready, state]
            rfl, ?_⟩
          simp only [reduceCtorEq, or_true, and_self, iff_true]
          revert ready
          cases events.seRead <;> cases events.seWrite <;> simp
      | none =>
          refine Or.inl ⟨by simp, _, by
            simp only [OpenSSLStreamAdapter.onReadWrite, ready, state]
            rfl, ?_⟩
          simpa using ready
      | wait | error | closed =>
          refine Or.inl ⟨by simp, {}, ?_, by simp⟩
          simp [OpenSSLStreamAdapter.onReadWrite, ready, state]

-----------------------------------------------------------------------------------------
-- What a handshake step verifies
-----------------------------------------------------------------------------------------

/-- One of the calls presents, as leaf, a certificate with the configured digest. -/
def OpenSSLStreamAdapter.Presented (x509Digest : Cert → EvpMd → List UInt8)
    (a : OpenSSLStreamAdapter Cert) (calls : List (VerifyCall Cert))
    : Prop :=
  ∃ call ∈ calls, call.depth ≤ 0 ∧ a.DigestMatches x509Digest call.cert

/-- A matching digest has an algorithm. -/
theorem OpenSSLStreamAdapter.DigestMatches.configured {a : OpenSSLStreamAdapter Cert} {cert : Cert}
    (h : a.DigestMatches x509Digest cert)
    : a.peerCertificateDigestAlgorithm ≠ "" := by
  intro unknown
  simp [DigestMatches, unknown, computeDigest, getDigestEVP] at h

/-- The callbacks of one handshake step end verified exactly when the adapter was verified
before or one of them presents the configured certificate, by induction on the calls.
-/
theorem OpenSSLStreamAdapter.Consistent.runVerifyCallbacks_verified_iff
    {a : OpenSSLStreamAdapter Cert} (h : a.Consistent x509Digest auth)
    (connecting : a.state = .connecting) (calls : List (VerifyCall Cert))
    : (a.runVerifyCallbacks x509Digest calls).adapter.peerCertificateVerified = true
      ↔ a.peerCertificateVerified = true ∨ a.Presented x509Digest calls := by
  induction calls generalizing a with
  | nil => simp [OpenSSLStreamAdapter.runVerifyCallbacks, Presented]
  | cons call rest ih =>
      obtain ⟨cert, flag, framed⟩ := @sslVerifyCallback_frame _ x509Digest a call
      have later := ih (h.sslVerifyCallback connecting call) (by rw [framed]; exact connecting)
      -- The digest stays configured, so the later calls are compared with the same one.
      have same
          : (a.sslVerifyCallback x509Digest call).1.Presented x509Digest rest
            ↔ a.Presented x509Digest rest := by
        rw [framed]
        exact Iff.rfl
      have first
          : (a.sslVerifyCallback x509Digest call).1.peerCertificateVerified = true
            ↔ a.peerCertificateVerified = true
              ∨ (call.depth ≤ 0 ∧ a.DigestMatches x509Digest call.cert) := by
        by_cases ignored : call.depth > 0 ∨ a.peerCertificateDigestAlgorithm = ""
            ∨ a.peerCertificateVerified = true
        · rw [sslVerifyCallback_ignored ignored]
          constructor
          · exact Or.inl
          · intro either
            rcases either with verified | ⟨leaf, matched⟩
            · exact verified
            · rcases ignored with chained | unknown | verified
              · omega
              · exact absurd unknown matched.configured
              · exact verified
        · simp only [not_or, Bool.not_eq_true, gt_iff_lt, Int.not_lt] at ignored
          obtain ⟨leaf, configured, unverified⟩ := ignored
          rw [sslVerifyCallback_checked h leaf configured unverified]
          split_ifs with matched
          · simp [leaf, matched]
          · simp [matched, unverified]
      change ((a.sslVerifyCallback x509Digest call).1.runVerifyCallbacks x509Digest
        rest).adapter.peerCertificateVerified = true ↔ _
      rw [later, same, first]
      simp only [Presented, List.exists_mem_cons_iff, or_assoc]

/-- OpenSSL's answer decides whether a handshake step ends connected. -/
theorem continueSSL_connected_iff {a : OpenSSLStreamAdapter Cert}
    (connecting : a.state = .connecting) (handshake : Handshake Cert)
    : (a.continueSSL x509Digest handshake).adapter.state = .connected
      ↔ a.sslError x509Digest handshake = sslErrorNone := by
  obtain ⟨cert, flag, framed⟩ :=
    @runVerifyCallbacks_frame _ x509Digest a.stopTimer handshake.calls
  have state
      : (a.stopTimer.runVerifyCallbacks x509Digest handshake.calls).adapter.state
        = .connecting := by
    rw [framed]
    exact (stopTimer_state a).trans connecting
  unfold continueSSL sslError
  generalize a.stopTimer.runVerifyCallbacks x509Digest handshake.calls = verified at state
  dsimp only
  split_ifs with completed
  · simp [completed]
  · simp [completed]
  · split
    · simp [completed, state]
    · split_ifs <;> simp [completed, state]
  all_goals simp [completed, state]

/-- A completed handshake step is verified by its callbacks. -/
theorem OpenSSLStreamAdapter.Consistent.continueSSL_waiting {a : OpenSSLStreamAdapter Cert}
    (h : a.Consistent x509Digest true) (connecting : a.state = .connecting)
    (handshake : Handshake Cert) (completed : a.sslError x509Digest handshake = sslErrorNone)
    : (a.continueSSL x509Digest handshake).adapter.waitingToVerifyPeerCertificate = true
      ↔ a.peerCertificateVerified = false ∧ ¬ a.Presented x509Digest handshake.calls := by
  have stopped : a.stopTimer.state = .connecting := (stopTimer_state a).trans connecting
  have verified := h.stopTimer.runVerifyCallbacks_verified_iff stopped handshake.calls
  have consistent := (h.stopTimer.runVerifyCallbacks stopped handshake.calls).consistent
  have same
      : a.stopTimer.peerCertificateVerified = a.peerCertificateVerified
        ∧ (a.stopTimer.Presented x509Digest handshake.calls
          ↔ a.Presented x509Digest handshake.calls) := by
    unfold OpenSSLStreamAdapter.stopTimer
    split <;> exact ⟨rfl, Iff.rfl⟩
  rw [same.1, same.2] at verified
  have final
      : (a.continueSSL x509Digest handshake).adapter.waitingToVerifyPeerCertificate
        = (a.stopTimer.runVerifyCallbacks x509Digest
            handshake.calls).adapter.waitingToVerifyPeerCertificate := by
    unfold OpenSSLStreamAdapter.sslError at completed
    unfold OpenSSLStreamAdapter.continueSSL
    dsimp only
    rw [if_pos completed]
    rfl
  rw [final, waitingToVerifyPeerCertificate, consistent.clientAuth rfl, Bool.true_and,
    Bool.not_eq_true', ← Bool.not_eq_true, verified, not_or, Bool.not_eq_true]

end RtcBase.SslStream
