import RtcBase.SslStream.Progress

/-! The entries that each action can leave on the trace: those of a handshake step, the close
signal of an error, the call and return of `start_SSL`, and stream events passed on.
-/

namespace RtcBase.SslStream

open RtcBase.Library OpenSSLStreamAdapter

variable {Cert : Type} {x509Digest : Cert → EvpMd → List UInt8} {auth : Bool}

/-- Every entry of one action on `a`, with the reason why a stream event was passed on. -/
inductive Entry.Performed (x509Digest : Cert → EvpMd → List UInt8)
    (a : OpenSSLStreamAdapter Cert)
    : Op Cert → Entry Cert → Prop where
  | handshake {op : Op Cert} {entry : Entry Cert} (h : entry.FromHandshake)
    : Performed x509Digest a op entry
  | closed {op : Op Cert} (err : Int) (moment : OpenSSLStreamAdapter Cert)
    : Performed x509Digest a op ⟨.signalEvent .errorInfo { seClose := true } err, moment⟩
  | startSSL {setup : SSLSetup Cert}
    : Performed x509Digest a (.startSSL setup) ⟨.startSSL, a⟩
  | startSSLReturned {setup : SSLSetup Cert} (ret : Int) (moment : OpenSSLStreamAdapter Cert)
    : Performed x509Digest a (.startSSL setup) ⟨.startSSLReturned ret, moment⟩
  | forwarded {events : StreamEvents} {err : Int} {streamState : StreamState}
    {setup : SSLSetup Cert} {handshake : Handshake Cert} (signalled : StreamEvents)
    (signalError : Int) (moment : OpenSSLStreamAdapter Cert)
    (opens : signalled.seOpen = true → events.seOpen = true ∧ a.state ≠ .wait)
    (announces
      : (signalled.seRead || signalled.seWrite) = true
        → (events.seRead || events.seWrite) = true
          ∧ ((a.onOpen x509Digest events setup).adapter.state = .none
            ∨ (a.onOpen x509Digest events setup).adapter.state = .connected)
          ∧ moment.waitingToVerifyPeerCertificate
            = (a.onOpen x509Digest events setup).adapter.waitingToVerifyPeerCertificate)
    : Performed x509Digest a (.onEvent events err streamState setup handshake)
        ⟨.signalEvent .onEvent signalled signalError, moment⟩

/-- Handshake entries followed by the error report are entries of any action. -/
theorem performed_of_handshake {a : OpenSSLStreamAdapter Cert} {op : Op Cert}
    {outcome : Outcome Cert Int} (h : outcome.FromHandshake)
    : ∀ entry ∈ outcome.trace, entry.Performed x509Digest a op :=
  fun entry member => .handshake (h.entries entry member)

/-- The error report leaves at most the close signal. -/
theorem performed_of_errorInfo {a : OpenSSLStreamAdapter Cert} {op : Op Cert}
    (failing : OpenSSLStreamAdapter Cert) (err : Int) (signal : Bool)
    : ∀ entry ∈ (failing.errorInfo err signal).trace, entry.Performed x509Digest a op := by
  cases signal with
  | false => simp [errorInfo]
  | true => exact List.forall_mem_singleton.mpr (.closed _ _)

/-- The entries of the `SE_OPEN` branch, and when it passes the event on. -/
theorem onOpen_performed (a : OpenSSLStreamAdapter Cert) (events : StreamEvents)
    (setup : SSLSetup Cert) (op : Op Cert)
    : (∀ entry ∈ (a.onOpen x509Digest events setup).trace, entry.Performed x509Digest a op)
      ∧ ((a.onOpen x509Digest events setup).value.1.seOpen = true
        → events.seOpen = true ∧ a.state ≠ .wait) := by
  have begun : (a.begun x509Digest setup).FromHandshake := beginSSL_fromHandshake rfl setup
  rcases @onOpen_cases _ x509Digest a events setup
    with ⟨quiet, same⟩ | ⟨-, -, same⟩ | ⟨-, -, same⟩
  · rw [same]
    refine ⟨List.forall_mem_nil _, ?_⟩
    intro opened
    exact ⟨opened, fun waiting => quiet ⟨opened, waiting⟩⟩
  · rw [same]
    exact ⟨performed_of_handshake begun, by simp⟩
  · rw [same]
    exact ⟨List.forall_mem_append.mpr
      ⟨performed_of_handshake begun, performed_of_errorInfo _ _ _⟩, by simp⟩

/-- The entries of the `SE_READ`/`SE_WRITE` branch, and when it passes the events on. -/
theorem onReadWrite_performed (start a : OpenSSLStreamAdapter Cert) (events : StreamEvents)
    (handshake : Handshake Cert) (op : Op Cert)
    : (∀ entry ∈ (a.onReadWrite x509Digest events handshake).trace,
          entry.Performed x509Digest start op)
      ∧ (((a.onReadWrite x509Digest events handshake).value.1.seRead
            || (a.onReadWrite x509Digest events handshake).value.1.seWrite) = true
        → (events.seRead || events.seWrite) = true
          ∧ (a.state = .none ∨ a.state = .connected)
          ∧ (a.onReadWrite x509Digest events handshake).adapter = a) := by
  rcases @onReadWrite_cases _ x509Digest a events handshake
    with ⟨-, forwarded, same, announces⟩ | ⟨⟨-, connecting⟩, -, same⟩
      | ⟨⟨-, connecting⟩, -, same⟩
  · rw [same]
    refine ⟨List.forall_mem_nil _, ?_⟩
    intro signalled
    obtain ⟨raised, state⟩ := announces.mp signalled
    exact ⟨raised, state, rfl⟩
  · rw [same]
    exact ⟨performed_of_handshake (continueSSL_fromHandshake connecting handshake), by simp⟩
  · rw [same]
    exact ⟨List.forall_mem_append.mpr
      ⟨performed_of_handshake (continueSSL_fromHandshake connecting handshake),
        performed_of_errorInfo _ _ _⟩, by simp⟩

/-- The entries of a stream event: those of its branches and the events passed on. -/
theorem onEvent_performed (a : OpenSSLStreamAdapter Cert) (events : StreamEvents) (err : Int)
    (streamState : StreamState) (setup : SSLSetup Cert) (handshake : Handshake Cert)
    : ∀ entry ∈ (a.onEvent x509Digest events err setup handshake).trace,
        entry.Performed x509Digest a (.onEvent events err streamState setup handshake) := by
  obtain ⟨opening, opens⟩ := @onOpen_performed _ x509Digest a events setup
    (.onEvent events err streamState setup handshake)
  obtain ⟨ready, announces⟩ := @onReadWrite_performed _ x509Digest a
    (a.onOpen x509Digest events setup).adapter events handshake
    (.onEvent events err streamState setup handshake)
  unfold onEvent
  dsimp only
  split_ifs with openFailed readFailed
  · exact opening
  · exact List.forall_mem_append.mpr ⟨opening, ready⟩
  all_goals refine List.forall_mem_append.mpr ⟨List.forall_mem_append.mpr ⟨opening, ready⟩, ?_⟩
  · refine List.forall_mem_singleton.mpr (.forwarded _ _ _ opens ?_)
    intro signalled
    obtain ⟨raised, state, same⟩ := announces signalled
    refine ⟨raised, state, ?_⟩
    rw [same, cleanup_waiting]
  · exact List.forall_mem_nil _
  · refine List.forall_mem_singleton.mpr (.forwarded _ _ _ opens ?_)
    intro signalled
    obtain ⟨raised, state, same⟩ := announces signalled
    refine ⟨raised, state, ?_⟩
    rw [same]
  · exact List.forall_mem_nil _

/-- The entries of every action on a consistent adapter. -/
theorem OpenSSLStreamAdapter.Consistent.performed {a : OpenSSLStreamAdapter Cert}
    (h : a.Consistent x509Digest auth) (streamState : StreamState) (op : Op Cert)
    : ∀ entry ∈ (a.perform x509Digest streamState op).trace,
        entry.Performed x509Digest a op := by
  cases op with
  | startSSL setup =>
      have begun : (a.begun x509Digest setup).FromHandshake := beginSSL_fromHandshake rfl setup
      unfold OpenSSLStreamAdapter.perform OpenSSLStreamAdapter.startSSL
      dsimp only
      split_ifs
      · exact List.forall_mem_cons.mpr
          ⟨.startSSL, List.forall_mem_singleton.mpr (.startSSLReturned _ _)⟩
      · exact List.forall_mem_cons.mpr
          ⟨.startSSL, List.forall_mem_singleton.mpr (.startSSLReturned _ _)⟩
      · simp only [List.forall_mem_append, List.forall_mem_cons]
        exact ⟨⟨⟨.startSSL, performed_of_handshake begun⟩, performed_of_errorInfo _ _ _⟩,
          .startSSLReturned _ _, List.forall_mem_nil _⟩
      · simp only [List.forall_mem_append, List.forall_mem_cons]
        exact ⟨⟨.startSSL, performed_of_handshake begun⟩, .startSSLReturned _ _,
          List.forall_mem_nil _⟩
  | onEvent events err streamState setup handshake =>
      exact onEvent_performed a events err streamState setup handshake
  | setPeerCertificateDigest digestAlg digestVal =>
      change ∀ entry ∈ (a.setPeerCertificateDigest x509Digest digestAlg digestVal).trace, _
      rcases @setPeerCertificateDigest_cases _ x509Digest a digestAlg digestVal
        with ⟨-, -, silent⟩ | ⟨-, -, set⟩ | ⟨-, cert, -, -, set⟩ | ⟨-, cert, -, -, set⟩
      · simp [silent]
      · simp [set]
      · simp [set]
      · simp [set]
  | dtlsHandshakeTimeout handshake =>
      unfold OpenSSLStreamAdapter.perform
      split_ifs with armed
      · have connecting : a.stopTimer.state = .connecting := by
          rw [stopTimer_state, h.armed armed]
        exact performed_of_handshake (continueSSL_fromHandshake connecting handshake)
      · exact List.forall_mem_nil _
  | setClientAuthEnabled enabled => exact List.forall_mem_nil _
  | setIdentity identity => exact List.forall_mem_nil _
  | setDtlsSrtpCryptoSuites ciphers => exact List.forall_mem_nil _
  | destroy => exact List.forall_mem_nil _

end RtcBase.SslStream
