import RtcBase.SslStream.Entries

/-! When the adapter tells its user that the stream is open. With client authentication and a
wrapped stream that opens once, `SE_OPEN` is signalled at most once after `start_SSL`, and only
for a connected adapter whose recorded certificate has the configured digest.
-/

namespace RtcBase.SslStream

open RtcBase.Library OpenSSLStreamAdapter

variable {Cert : Type} {x509Digest : Cert → EvpMd → List UInt8}

/-- The wrapped stream raises `SE_OPEN` only on its transition to the open state, which it makes
at most once and never after `SE_CLOSE`.
-/
def System.StreamOpensOnce (sys : System Cert) : Op Cert → Prop
  | .onEvent events _ _ _ _ =>
      events.seOpen = true
        → sys.streamState ≠ .opened ∧ sys.streamOpened = false ∧ sys.streamClosed = false
  | _ => True

/-- What takes an adapter out of its early states. -/
def Op.LeavesEarly (streamState : StreamState) : Op Cert → Prop
  | .startSSL _ => streamState = .opened
  | .onEvent events _ _ _ _ => events.seOpen = true ∨ events.seClose = true
  | .destroy => True
  | _ => False

/-- A stream event that neither opens nor closes leaves an adapter in its early state. -/
theorem onEvent_early {a : OpenSSLStreamAdapter Cert} (early : a.state.rank < 2)
    {events : StreamEvents} (noOpen : events.seOpen ≠ true) (noClose : events.seClose ≠ true)
    (err : Int) (setup : SSLSetup Cert) (handshake : Handshake Cert)
    : (a.onEvent x509Digest events err setup handshake).adapter = a := by
  have notConnecting : a.state ≠ .connecting := by
    intro connecting
    simp [connecting, SSLState.rank] at early
  have opening : a.onOpen x509Digest events setup = ⟨a, [], { seOpen := events.seOpen }, false⟩ := by
    rcases @onOpen_cases _ x509Digest a events setup with ⟨-, same⟩ | ⟨both, -⟩ | ⟨both, -⟩
    · exact same
    · exact absurd both.1 noOpen
    · exact absurd both.1 noOpen
  rcases @onReadWrite_cases _ x509Digest a events handshake
    with ⟨-, forwarded, same, -⟩ | ⟨both, -⟩ | ⟨both, -⟩
  · simp [onEvent, opening, same, noClose]
  · exact absurd both.2 notConnecting
  · exact absurd both.2 notConnecting

/-- Only the listed actions take an adapter past its early states. -/
theorem OpenSSLStreamAdapter.Consistent.perform_early {a : OpenSSLStreamAdapter Cert} {auth : Bool}
    (h : a.Consistent x509Digest auth) (early : a.state.rank < 2) (streamState : StreamState)
    {op : Op Cert} (stays : ¬ op.LeavesEarly streamState)
    : (a.perform x509Digest streamState op).adapter.state.rank < 2 := by
  cases op with
  | startSSL setup =>
      simp only [OpenSSLStreamAdapter.perform, OpenSSLStreamAdapter.startSSL,
        show streamState ≠ .opened from stays, ne_eq, not_false_eq_true, if_true]
      split_ifs
      · simp [SSLState.rank]
      · exact early
  | setPeerCertificateDigest digestAlg digestVal =>
      have absent : a.peerCertificate = none := by
        apply (h.untouched _).1
        revert early
        cases a.state <;> simp [SSLState.rank]
      have same
          : (a.setPeerCertificateDigest x509Digest digestAlg digestVal).adapter.state
            = a.state := by
        rcases @setPeerCertificateDigest_cases _ x509Digest a digestAlg digestVal
          with ⟨-, same, -⟩ | ⟨-, -, set⟩ | ⟨-, cert, recorded, -⟩ | ⟨-, cert, recorded, -⟩
        · rw [same]
        · rw [set]
          rfl
        · simp [absent] at recorded
        · simp [absent] at recorded
      simpa only [OpenSSLStreamAdapter.perform, same] using early
  | onEvent events err _ setup handshake =>
      have both := not_or.mp stays
      simpa only [OpenSSLStreamAdapter.perform, onEvent_early early both.1 both.2] using early
  | dtlsHandshakeTimeout handshake =>
      have unarmed : a.handshakeTimerWatcher ≠ .armed := by
        intro armed
        simp [h.armed armed, SSLState.rank] at early
      simpa only [OpenSSLStreamAdapter.perform, if_neg unarmed] using early
  | setClientAuthEnabled enabled => exact early
  | setIdentity identity => exact early
  | setDtlsSrtpCryptoSuites ciphers =>
      obtain ⟨srtpCiphers, framed⟩ := setDtlsSrtpCryptoSuites_frame a ciphers
      simpa only [OpenSSLStreamAdapter.perform, framed] using early
  | destroy => exact absurd trivial stays

/-- What follows the first call of `start_SSL` grows with the trace once there is such a call.
-/
theorem afterStart_append (trace more : List (Entry Cert))
    : afterStart (trace ++ more)
      = if trace.any Entry.startCalled then afterStart trace ++ more else afterStart more := by
  induction trace with
  | nil => simp
  | cons entry rest ih =>
      cases called : entry.startCalled with
      | true => simp [afterStart, called]
      | false => simpa [afterStart, called] using ih

/-- Without a call of `start_SSL` nothing follows one. -/
theorem afterStart_eq_nil {trace : List (Entry Cert)}
    (quiet : ∀ entry ∈ trace, entry.startCalled = false)
    : afterStart trace = [] := by
  induction trace with
  | nil => rfl
  | cons entry rest ih =>
      obtain ⟨head, tail⟩ := List.forall_mem_cons.mp quiet
      simpa [afterStart, head] using ih tail

/-- The stream's history against the adapter's state, and the opens after `start_SSL`. -/
structure System.OpensAfterHandshake (sys : System Cert) : Prop where
  streamOpened : sys.streamState = .opened → sys.streamOpened = true
  pastEarly
    : 2 ≤ sys.adapter.state.rank
      → sys.streamOpened = true ∨ sys.streamClosed = true ∨ sys.destroyed = true
  started : sys.trace.any Entry.startCalled = true → 1 ≤ sys.adapter.state.rank
  own : ∀ entry ∈ afterStart sys.trace, entry.signalsOpen = true → entry.ownOpen = true
  progress : Progress (System.initial Cert .closed).adapter sys.adapter sys.trace

/-- Before any action the stream's history is its initial state. -/
theorem System.initial_opensAfterHandshake (streamState : StreamState)
    : (System.initial Cert streamState).OpensAfterHandshake where
  streamOpened := by simp [System.initial]
  pastEarly := by simp [System.initial, SSLState.rank]
  started := by simp [System.initial]
  own := by simp [System.initial, afterStart]
  progress := .idle _ rfl

/-- An action after which `start_SSL` has been called leaves the clear state for good. -/
theorem OpenSSLStreamAdapter.Consistent.perform_started {a : OpenSSLStreamAdapter Cert} {auth : Bool}
    (h : a.Consistent x509Digest auth) (streamState : StreamState) (op : Op Cert)
    (called : (a.perform x509Digest streamState op).trace.any Entry.startCalled = true)
    : 1 ≤ (a.perform x509Digest streamState op).adapter.state.rank := by
  obtain ⟨entry, member, isCall⟩ := List.any_eq_true.mp called
  cases h.performed streamState op entry member with
  | handshake fromHandshake => simp [fromHandshake.start.1] at isCall
  | closed | forwarded | startSSLReturned => simp [Entry.startCalled] at isCall
  | @startSSL setup =>
      simp only [OpenSSLStreamAdapter.perform, OpenSSLStreamAdapter.startSSL]
      split_ifs with running waiting failed
      · cases state : a.state <;> simp_all [SSLState.rank]
      · simp [SSLState.rank]
      · simp [SSLState.rank]
      · have begun : (a.begun x509Digest setup).FromHandshake := beginSSL_fromHandshake rfl setup
        rcases begun.state with ⟨connecting, -⟩ | ⟨-, connected, -⟩
        · simp [connecting, SSLState.rank]
        · simp [connected, SSLState.rank]

/-- Once `start_SSL` is called, an action of a well-behaved run signals `SE_OPEN` only for the
handshake: a stream event that would be passed on as `SE_OPEN` would be the stream's second opening.
-/
theorem System.OpensAfterHandshake.ownOpen {sys : System Cert} (h : sys.OpensAfterHandshake)
    (running : sys.destroyed = false) {op : Op Cert} (opensOnce : sys.StreamOpensOnce op)
    (cause : sys.trace.any Entry.startCalled = true ∨ ∃ setup, op = .startSSL setup)
    {entry : Entry Cert} (performed : entry.Performed x509Digest sys.adapter op)
    (signals : entry.signalsOpen = true)
    : entry.ownOpen = true := by
  cases performed with
  | handshake fromHandshake => rwa [← fromHandshake.signalsOpen]
  | closed | startSSL | startSSLReturned => simp [Entry.signalsOpen] at signals
  | forwarded signalled signalError moment opens announces =>
      obtain ⟨opened, notWaiting⟩ := opens (by simpa [Entry.signalsOpen] using signals)
      have fresh := opensOnce opened
      have called : sys.trace.any Entry.startCalled = true := by
        rcases cause with called | ⟨setup, isStart⟩
        · exact called
        · cases isStart
      have late : 2 ≤ sys.adapter.state.rank := by
        have started := h.started called
        revert started notWaiting
        cases sys.adapter.state <;> simp [SSLState.rank]
      have history := h.pastEarly late
      simp [fresh, running] at history

/-- Only `start_SSL` records a call of `start_SSL`. -/
theorem Entry.Performed.startCalled_eq_false {a : OpenSSLStreamAdapter Cert} {op : Op Cert}
    {entry : Entry Cert} (performed : entry.Performed x509Digest a op)
    (other : ¬ ∃ setup, op = .startSSL setup)
    : entry.startCalled = false := by
  cases performed with
  | handshake fromHandshake => exact fromHandshake.start.1
  | closed | forwarded => rfl
  | startSSL | startSSLReturned => exact absurd ⟨_, rfl⟩ other

/-- A well-behaved step keeps the history. -/
theorem System.OpensAfterHandshake.step {sys : System Cert} (h : sys.OpensAfterHandshake)
    (consistent : sys.adapter.Consistent x509Digest true) {op : Op Cert}
    (opensOnce : sys.StreamOpensOnce op)
    : (sys.step x509Digest op).OpensAfterHandshake := by
  cases gone : sys.destroyed with
  | true =>
      rwa [System.step_destroyed x509Digest gone]
  | false =>
      have adapter := sys.step_adapter x509Digest op
      have trace := sys.step_trace x509Digest op
      simp only [gone, Bool.false_eq_true, if_false, System.stepTrace] at adapter trace
      have forward := consistent.perform_progress sys.streamState op
      have performed := consistent.performed sys.streamState op
      refine {
        streamOpened := ?_
        pastEarly := ?_
        started := ?_
        own := ?_
        progress := ?_
      }
      · cases op <;> simp_all [System.step, h.streamOpened]
      · intro late
        rw [adapter] at late
        by_cases early : sys.adapter.state.rank < 2
        · have leaves : op.LeavesEarly sys.streamState := by
            by_contra stays
            have still := consistent.perform_early early sys.streamState stays
            omega
          cases op <;> simp_all [System.step, Op.LeavesEarly, h.streamOpened]
          rcases leaves with opens | closes
          · simp [opens]
          · simp [closes]
        · have history := h.pastEarly (by omega)
          cases op <;> simp_all [System.step]
          rcases history with opened | closed
          · simp [opened]
          · simp [closed]
      · rw [trace, adapter, List.any_append, Bool.or_eq_true]
        intro either
        rcases either with earlier | now
        · exact Nat.le_trans (h.started earlier) forward.forward
        · exact consistent.perform_started sys.streamState op now
      · rw [trace, afterStart_append]
        split_ifs with called
        · refine List.forall_mem_append.mpr ⟨h.own, ?_⟩
          intro entry member
          exact h.ownOpen gone opensOnce (Or.inl called) (performed entry member)
        · intro entry member
          have suffix : entry ∈ (sys.adapter.perform x509Digest sys.streamState op).trace :=
            (List.dropWhile_sublist _).subset (List.mem_of_mem_tail member)
          by_cases isStart : ∃ setup, op = .startSSL setup
          · exact h.ownOpen gone opensOnce (Or.inr isStart) (performed entry suffix)
          · have quiet := afterStart_eq_nil (fun other present =>
              (performed other present).startCalled_eq_false isStart)
            rw [quiet] at member
            cases member
      · rw [trace, adapter]
        exact h.progress.trans forward

/-- Along a run with client authentication and a stream that opens once, the adapter is sound
and the opens after `start_SSL` are its own.
-/
theorem System.run_opensAfterHandshake {streamState : StreamState} {ops : List (Op Cert)}
    (authKept : ∀ op ∈ ops, op ≠ .setClientAuthEnabled false)
    (opensOnce
      : Along (System.step x509Digest) System.StreamOpensOnce
          (System.initial Cert streamState) ops)
    : (System.run x509Digest streamState ops).Sound x509Digest true
      ∧ (System.run x509Digest streamState ops).OpensAfterHandshake := by
  have authAlong
      : Along (System.step x509Digest) (fun _ op => op ≠ .setClientAuthEnabled false)
          (System.initial Cert streamState) ops :=
    along_of_forall_mem (fun op member _ => authKept op member) _
  have initial
      : (System.initial Cert streamState).Sound x509Digest true
        ∧ (System.initial Cert streamState).OpensAfterHandshake :=
    ⟨System.initial_sound streamState, System.initial_opensAfterHandshake streamState⟩
  have preserved
      : ∀ (sys : System Cert) (op : Op Cert),
          sys.Sound x509Digest true ∧ sys.OpensAfterHandshake
          → op ≠ .setClientAuthEnabled false ∧ sys.StreamOpensOnce op
          → (sys.step x509Digest op).Sound x509Digest true
            ∧ (sys.step x509Digest op).OpensAfterHandshake := by
    intro sys op ⟨sound, opens⟩ ⟨kept, once⟩
    exact ⟨sound.step (fun _ => kept), opens.step sound.consistent once⟩
  exact runFrom_invariant_along preserved initial (along_and authAlong opensOnce)

/-- In every run with client authentication enabled throughout, around a stream that raises
`SE_OPEN` at most once and never after `SE_CLOSE`: after `start_SSL` the adapter signals
`SE_OPEN` at most once, and then it is connected and has on record a certificate whose digest
is the configured one.
-/
theorem signalsOpen_once_verified (x509Digest : Cert → EvpMd → List UInt8)
    (streamState : StreamState) (ops : List (Op Cert))
    (authKept : ∀ op ∈ ops, op ≠ .setClientAuthEnabled false)
    (opensOnce
      : Along (System.step x509Digest) System.StreamOpensOnce
          (System.initial Cert streamState) ops)
    : (afterStart (System.run x509Digest streamState ops).trace).countP Entry.signalsOpen ≤ 1
      ∧ ∀ entry ∈ afterStart (System.run x509Digest streamState ops).trace,
          entry.signalsOpen = true
          → entry.adapter.state = .connected
            ∧ ∃ cert,
                entry.adapter.peerCertificate = some cert
                ∧ entry.adapter.DigestMatches x509Digest cert := by
  obtain ⟨sound, opens⟩ := System.run_opensAfterHandshake authKept opensOnce
  have suffix
      : (afterStart (System.run x509Digest streamState ops).trace).Sublist
          (System.run x509Digest streamState ops).trace :=
    (List.tail_sublist _).trans (List.dropWhile_sublist _)
  constructor
  · calc
      (afterStart (System.run x509Digest streamState ops).trace).countP Entry.signalsOpen
        ≤ (afterStart (System.run x509Digest streamState ops).trace).countP Entry.ownOpen :=
          List.countP_mono_left opens.own
      _ ≤ (System.run x509Digest streamState ops).trace.countP Entry.ownOpen :=
          suffix.countP_le
      _ ≤ 1 := by
          rcases opens.progress.opens with none | ⟨one, -⟩ <;> omega
  · intro entry member signals
    have entrySound := sound.trace entry (suffix.subset member)
    obtain ⟨connected, notWaiting⟩ := entrySound.ownOpen (opens.own entry member signals)
    have enabled := entrySound.consistent.clientAuth rfl
    have verified : entry.adapter.peerCertificateVerified = true := by
      simpa [waitingToVerifyPeerCertificate, enabled] using notWaiting
    have recorded := entrySound.consistent.verified verified
    simp only [connected, reduceCtorEq, false_or] at recorded
    exact ⟨connected, recorded⟩

/-- A stream that opens after `start_SSL`, and a handshake of two steps with the configured
certificate.
-/
def acceptsConfigured : List (Op Bool) :=
  let blocked : Handshake Bool := { calls := [], getError := fun _ => sslErrorWantRead }
  let accepted : Handshake Bool := { calls := [⟨true, 0⟩], getError := fun _ => sslErrorNone }
  [
    .setPeerCertificateDigest "md5" (twoCertificates true .md5),
    .startSSL { handshake := blocked },
    .onEvent { seOpen := true } 0 .opened { handshake := blocked } blocked,
    .onEvent { seRead := true } 0 .opened { handshake := blocked } accepted
  ]

/-- In that run `SE_OPEN` is signalled once, with the configured certificate on record. -/
theorem acceptsConfigured_signalsOpen_once
    : (afterStart (System.run twoCertificates .opening acceptsConfigured).trace).countP
          Entry.signalsOpen
        = 1
      ∧ ∀ entry ∈ afterStart (System.run twoCertificates .opening acceptsConfigured).trace,
          entry.signalsOpen = true
          → entry.adapter.state = .connected
            ∧ ∃ cert,
                entry.adapter.peerCertificate = some cert
                ∧ entry.adapter.DigestMatches twoCertificates cert := by
  refine ⟨by decide, (signalsOpen_once_verified twoCertificates .opening acceptsConfigured
    ?_ ?_).2⟩
  · simp [acceptsConfigured]
  · refine ⟨trivial, trivial, ?_, ?_, trivial⟩
    · exact fun _ => by decide
    · exact nofun

end RtcBase.SslStream
