import RtcBase.SslStream.Entries

/-! What becomes of a failed handshake step. A stream event reports it: the adapter ends in the
error state, releases its OpenSSL objects and signals `SE_CLOSE` once. The timeout callback
drops it, so a run reports every failure exactly when no timeout step fails.
-/

namespace RtcBase.SslStream

open RtcBase.Library OpenSSLStreamAdapter

variable {Cert : Type} {x509Digest : Cert → EvpMd → List UInt8} {auth : Bool}

/-- The handshake is driven from a stream event or from the timeout callback. -/
def Op.Asynchronous : Op Cert → Prop
  | .onEvent _ _ _ _ _ => True
  | .dtlsHandshakeTimeout _ => True
  | _ => False

/-- A failure of the handshake in this step takes the adapter out of the connecting state; in an
asynchronous step into the error state, with its OpenSSL objects released and `SE_CLOSE`
signalled exactly once.
-/
def System.FailureReported (x509Digest : Cert → EvpMd → List UInt8) (sys : System Cert)
    (op : Op Cert)
    : Prop :=
  (sys.stepTrace x509Digest op).any Entry.handshakeFailed = true
  → (sys.step x509Digest op).adapter.state ≠ .connecting
    ∧ (op.Asynchronous
      → (sys.step x509Digest op).adapter.state = .error
        ∧ (sys.step x509Digest op).adapter.ssl = false
        ∧ (sys.step x509Digest op).adapter.sslCtx = false
        ∧ (sys.stepTrace x509Digest op).countP Entry.signalsClose = 1)

/-- No running timer fires into a handshake step that OpenSSL ends with an error. -/
def System.TimeoutStepSucceeds (x509Digest : Cert → EvpMd → List UInt8) (sys : System Cert)
    : Op Cert → Prop
  | .dtlsHandshakeTimeout handshake =>
      sys.destroyed = false
      → sys.adapter.handshakeTimerWatcher = .armed
      → sys.adapter.sslError x509Digest handshake = sslErrorNone
        ∨ sys.adapter.sslError x509Digest handshake = sslErrorWantRead
        ∨ sys.adapter.sslError x509Digest handshake = sslErrorWantWrite
  | _ => True

/-- Stopping a stopped timer does nothing. -/
theorem stopTimer_stopTimer (a : OpenSSLStreamAdapter Cert)
    : a.stopTimer.stopTimer = a.stopTimer := by
  unfold stopTimer
  cases timer : a.handshakeTimerWatcher <;> simp [timer]

/-- A handshake entry closes nothing. -/
theorem Outcome.FromHandshake.signalsClose {outcome : Outcome Cert Int}
    (h : outcome.FromHandshake)
    : outcome.trace.countP Entry.signalsClose = 0 := by
  rw [List.countP_eq_zero]
  intro entry member
  simp [(h.entries entry member).signalsClose]

/-- The report of a failed handshake step, behind any entries that close nothing. -/
theorem errorInfo_reports (a : OpenSSLStreamAdapter Cert) (err : Int)
    {earlier : List (Entry Cert)} (quiet : earlier.countP Entry.signalsClose = 0)
    : (a.errorInfo err true).adapter.state = .error
      ∧ (a.errorInfo err true).adapter.ssl = false
      ∧ (a.errorInfo err true).adapter.sslCtx = false
      ∧ (earlier ++ (a.errorInfo err true).trace).countP Entry.signalsClose = 1 := by
  refine ⟨errorInfo_state a err true, rfl, rfl, ?_⟩
  rw [List.countP_append, quiet]
  rfl

/-- A stream event reports every failure of the handshake steps it takes, by the branches of
`on_event`.
-/
theorem onEvent_reports (a : OpenSSLStreamAdapter Cert) (events : StreamEvents) (err : Int)
    (setup : SSLSetup Cert) (handshake : Handshake Cert)
    (failed
      : (a.onEvent x509Digest events err setup handshake).trace.any Entry.handshakeFailed = true)
    : (a.onEvent x509Digest events err setup handshake).adapter.state = .error
      ∧ (a.onEvent x509Digest events err setup handshake).adapter.ssl = false
      ∧ (a.onEvent x509Digest events err setup handshake).adapter.sslCtx = false
      ∧ (a.onEvent x509Digest events err setup handshake).trace.countP Entry.signalsClose
        = 1 := by
  have begun : (a.begun x509Digest setup).FromHandshake := beginSSL_fromHandshake rfl setup
  -- Unless it fails, the first branch leaves nothing that closes or failed on the trace.
  have opening
      : (a.onOpen x509Digest events setup).value.2 = false
        → (a.onOpen x509Digest events setup).trace.countP Entry.signalsClose = 0
          ∧ (a.onOpen x509Digest events setup).trace.any Entry.handshakeFailed = false := by
    rcases @onOpen_cases _ x509Digest a events setup
      with ⟨-, same⟩ | ⟨-, succeeded, same⟩ | ⟨-, -, same⟩
    · rw [same]
      exact fun _ => ⟨rfl, rfl⟩
    · rw [same]
      exact fun _ => ⟨begun.signalsClose, by simpa [succeeded] using begun.failed⟩
    · simp [same]
  unfold onEvent at failed ⊢
  dsimp only at failed ⊢
  rcases @onOpen_cases _ x509Digest a events setup
    with ⟨-, opened⟩ | ⟨-, -, opened⟩ | ⟨-, -, opened⟩
  case inr.inr =>
    rw [opened]
    exact errorInfo_reports _ _ begun.signalsClose
  all_goals
    obtain ⟨quiet, unfailed⟩ := opening (by rw [opened])
    have going : (a.onOpen x509Digest events setup).value.2 = false := by rw [opened]
    rw [if_neg (by simp [going])] at failed ⊢
    rcases @onReadWrite_cases _ x509Digest (a.onOpen x509Digest events setup).adapter events
        handshake
      with ⟨-, forwarded, ready, -⟩ | ⟨⟨-, connecting⟩, succeeded, ready⟩
        | ⟨⟨-, connecting⟩, -, ready⟩
    · rw [ready] at failed
      simp only [List.append_nil, Bool.false_eq_true, if_false, List.any_append, unfailed,
        Bool.false_or] at failed
      split_ifs at failed <;> simp [Entry.handshakeFailed] at failed
    · have continued
          : ((a.onOpen x509Digest events setup).adapter.continueSSL x509Digest
              handshake).FromHandshake :=
        continueSSL_fromHandshake connecting handshake
      rw [ready] at failed
      simp only [Bool.false_eq_true, if_false, List.any_append, unfailed, Bool.false_or,
        show (((a.onOpen x509Digest events setup).adapter.continueSSL x509Digest
          handshake).trace.any Entry.handshakeFailed) = false by
          simpa [succeeded] using continued.failed] at failed
      split_ifs at failed <;> simp [Entry.handshakeFailed] at failed
    · have continued
          : ((a.onOpen x509Digest events setup).adapter.continueSSL x509Digest
              handshake).FromHandshake :=
        continueSSL_fromHandshake connecting handshake
      rw [ready, if_pos rfl]
      dsimp only
      rw [← List.append_assoc]
      refine errorInfo_reports _ _ ?_
      rw [List.countP_append, quiet, continued.signalsClose]

/-- A firing timer takes a step of the handshake. -/
theorem OpenSSLStreamAdapter.Consistent.timeout_fromHandshake {a : OpenSSLStreamAdapter Cert}
    (h : a.Consistent x509Digest auth) (armed : a.handshakeTimerWatcher = .armed)
    (handshake : Handshake Cert)
    : (a.stopTimer.continueSSL x509Digest handshake).FromHandshake := by
  have connecting : a.stopTimer.state = .connecting := by
    rw [stopTimer_state, h.armed armed]
  exact continueSSL_fromHandshake connecting handshake

/-- The timer is stopped before the step, so stopping it once more asks OpenSSL the same. -/
theorem sslError_stopTimer (a : OpenSSLStreamAdapter Cert) (handshake : Handshake Cert)
    : a.stopTimer.sslError x509Digest handshake = a.sslError x509Digest handshake := by
  simp only [OpenSSLStreamAdapter.sslError, stopTimer_stopTimer]

/-- A synchronous failure ends in the error state without a signal: `start_SSL` returns it. -/
theorem startSSL_failed {a : OpenSSLStreamAdapter Cert} {streamState : StreamState}
    {setup : SSLSetup Cert}
    (failed : (a.startSSL x509Digest streamState setup).trace.any Entry.handshakeFailed = true)
    : (a.startSSL x509Digest streamState setup).adapter.state = .error := by
  have begun : (a.begun x509Digest setup).FromHandshake := beginSSL_fromHandshake rfl setup
  unfold startSSL at failed ⊢
  dsimp only at failed ⊢
  split_ifs at failed ⊢ with running waiting stopped
  · simp [Entry.handshakeFailed] at failed
  · simp [Entry.handshakeFailed] at failed
  · exact errorInfo_state _ _ false
  · have succeeded : (a.begun x509Digest setup).trace.any Entry.handshakeFailed = false := by
      simpa [not_not.mp stopped] using begun.failed
    simp [Entry.handshakeFailed, List.any_append, succeeded] at failed

/-- One step reports its failures exactly when it is no failing timeout step. -/
theorem System.Sound.failureReported_iff {sys : System Cert} (h : sys.Sound x509Digest auth)
    (op : Op Cert)
    : sys.FailureReported x509Digest op ↔ sys.TimeoutStepSucceeds x509Digest op := by
  have adapter := sys.step_adapter x509Digest op
  cases gone : sys.destroyed with
  | true => cases op <;> simp [System.FailureReported, System.stepTrace,
      System.TimeoutStepSucceeds, gone]
  | false =>
      simp only [gone, Bool.false_eq_true, if_false] at adapter
      unfold System.FailureReported System.stepTrace
      rw [adapter]
      simp only [gone, Bool.false_eq_true, if_false]
      cases op with
      | startSSL setup =>
          refine iff_of_true (fun failed => ⟨?_, False.elim⟩) trivial
          have stopped : (sys.adapter.startSSL x509Digest sys.streamState setup).adapter.state
              = .error := startSSL_failed failed
          simp [OpenSSLStreamAdapter.perform, stopped]
      | onEvent events err streamState setup handshake =>
          refine iff_of_true (fun failed => ?_) trivial
          have reported := onEvent_reports sys.adapter events err setup handshake failed
          refine ⟨?_, fun _ => reported⟩
          simp [OpenSSLStreamAdapter.perform, reported.1]
      | dtlsHandshakeTimeout handshake =>
          by_cases armed : sys.adapter.handshakeTimerWatcher = .armed
          · have continued := h.consistent.timeout_fromHandshake armed handshake
            have decides := @continueSSL_value_eq_zero _ x509Digest sys.adapter.stopTimer
              handshake
            rw [sslError_stopTimer] at decides
            simp only [OpenSSLStreamAdapter.perform, System.TimeoutStepSucceeds, gone, armed,
              if_true, forall_const, dtlsHandshakeTimeoutCallback]
            rw [← decides, continued.failed]
            constructor
            · -- A failed step leaves the adapter connecting, since nothing reads its result.
              intro reported
              by_contra failed
              rcases continued.state with ⟨still, -⟩ | ⟨succeeded, -, -⟩
              · exact (reported failed).1 still
              · exact failed succeeded
            · exact fun succeeded failed => absurd succeeded failed
          · simp [OpenSSLStreamAdapter.perform, armed, System.TimeoutStepSucceeds]
      | setPeerCertificateDigest digestAlg digestVal =>
          refine iff_of_true (fun failed => ?_) trivial
          rcases @setPeerCertificateDigest_cases _ x509Digest sys.adapter digestAlg digestVal
            with ⟨-, -, silent⟩ | ⟨-, -, set⟩ | ⟨-, cert, -, -, set⟩ | ⟨-, cert, -, -, set⟩
          all_goals simp_all [OpenSSLStreamAdapter.perform]
      | setClientAuthEnabled enabled =>
          simp [OpenSSLStreamAdapter.perform, System.TimeoutStepSucceeds]
      | setIdentity identity => simp [OpenSSLStreamAdapter.perform, System.TimeoutStepSucceeds]
      | setDtlsSrtpCryptoSuites ciphers =>
          simp [OpenSSLStreamAdapter.perform, System.TimeoutStepSucceeds]
      | destroy => simp [OpenSSLStreamAdapter.perform, System.TimeoutStepSucceeds]

/-- A run reports every failure of a handshake step if and only if no running timer fires into
a step that OpenSSL ends with an error.
-/
theorem failuresReported_iff (x509Digest : Cert → EvpMd → List UInt8)
    (streamState : StreamState) (ops : List (Op Cert))
    : Along (System.step x509Digest) (System.FailureReported x509Digest)
        (System.initial Cert streamState) ops
      ↔ Along (System.step x509Digest) (System.TimeoutStepSucceeds x509Digest)
          (System.initial Cert streamState) ops := by
  have initial : (System.initial Cert streamState).Sound x509Digest false :=
    System.initial_sound streamState
  refine along_congr (fun sys op sound _ => ?_) (fun sys op sound => ?_) initial ops
  · exact System.Sound.step sound (by simp)
  · exact System.Sound.failureReported_iff sound op

/-- The first handshake step waits for the peer with a timeout of one millisecond, and the step
that the timer then takes is ended by OpenSSL with `SSL_ERROR_SSL`.
-/
def timesOutFatally : List (Op Bool) :=
  [
    .startSSL
      { handshake := { calls := [], getError := fun _ => 2, getTimeout := some 1000 } },
    .dtlsHandshakeTimeout { calls := [], getError := fun _ => 1 }
  ]

/-- In that run the failure is lost, and the adapter is left connecting after it. -/
theorem timesOutFatally_unreported
    : ¬ Along (System.step twoCertificates) (System.FailureReported twoCertificates)
          (System.initial Bool .opened) timesOutFatally
      ∧ (System.run twoCertificates .opened timesOutFatally).trace.any Entry.handshakeFailed
        = true
      ∧ (System.run twoCertificates .opened timesOutFatally).adapter.state = .connecting := by
  refine ⟨?_, by decide, by decide⟩
  intro ⟨_, lost, _⟩
  have leaves := (lost (by decide)).1
  revert leaves
  decide

end RtcBase.SslStream
