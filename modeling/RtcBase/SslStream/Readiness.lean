import RtcBase.SslStream.Entries

/-! Data events before the open event. A connected adapter that still waits for the peer's
digest passes `SE_READ` and `SE_WRITE` on, so they may reach the user before the adapter's own
`SE_OPEN`. A run is free of that exactly when no data event meets such an adapter, neither at
the start of the event nor after a handshake completed inside the same event.
-/

namespace RtcBase.SslStream

open RtcBase.Library OpenSSLStreamAdapter

variable {Cert : Type} {x509Digest : Cert → EvpMd → List UInt8} {auth : Bool}

-----------------------------------------------------------------------------------------
-- What a begun handshake verifies
-----------------------------------------------------------------------------------------

/-- The adapter as `begin_SSL` hands it to the first handshake step. -/
def OpenSSLStreamAdapter.prepared (a : OpenSSLStreamAdapter Cert) : OpenSSLStreamAdapter Cert :=
  { a with state := .connecting, sslCtx := true, ssl := true }

/-- Every allocation and configuration call of `begin_SSL` succeeds. -/
def OpenSSLStreamAdapter.setupSucceeds (a : OpenSSLStreamAdapter Cert) (setup : SSLSetup Cert)
    : Bool :=
  a.setupSSLContext setup && setup.bioNew && setup.sslNew && setup.ecKeyNew

/-- The handshake begun with this setup completes at once, and none of the leaf certificates
it presents has the configured digest.
-/
def OpenSSLStreamAdapter.CompletesUnverified (x509Digest : Cert → EvpMd → List UInt8)
    (a : OpenSSLStreamAdapter Cert) (setup : SSLSetup Cert)
    : Prop :=
  a.setupSucceeds setup = true
  ∧ a.prepared.sslError x509Digest setup.handshake = sslErrorNone
  ∧ ¬ a.Presented x509Digest setup.handshake.calls

/-- With the setup done, beginning is taking the first handshake step. -/
theorem begun_of_setupSucceeds {a : OpenSSLStreamAdapter Cert} {setup : SSLSetup Cert}
    (succeeds : a.setupSucceeds setup = true)
    : a.begun x509Digest setup = a.prepared.continueSSL x509Digest setup.handshake := by
  simp only [setupSucceeds, Bool.and_eq_true] at succeeds
  obtain ⟨⟨⟨context, bio⟩, ssl⟩, ecKey⟩ := succeeds
  have sameContext
      : OpenSSLStreamAdapter.setupSSLContext { a with state := .connecting } setup = true :=
    context
  simp [begun, beginSSL, sameContext, bio, ssl, ecKey, prepared]

/-- Without the setup done, beginning fails. -/
theorem begun_of_setupFails {a : OpenSSLStreamAdapter Cert} {setup : SSLSetup Cert}
    (fails : a.setupSucceeds setup = false)
    : (a.begun x509Digest setup).value ≠ 0 := by
  have sameContext
      : OpenSSLStreamAdapter.setupSSLContext { a with state := .connecting } setup
        = a.setupSSLContext setup :=
    rfl
  unfold begun beginSSL
  dsimp only
  rw [sameContext]
  split_ifs with notConnecting noContext noBio noSsl noKey
  all_goals try simp
  simp_all [setupSucceeds]

/-- A waiting adapter is handed over unverified. -/
theorem OpenSSLStreamAdapter.Consistent.prepared {a : OpenSSLStreamAdapter Cert}
    (h : a.Consistent x509Digest auth) (waiting : a.state = .wait)
    : a.prepared.Consistent x509Digest auth := by
  exact (h.connect (Or.inr waiting)).setPointers rfl true true

/-- A waiting adapter's handshake ends connected without the adapter's own open exactly when it
completes unverified.
-/
theorem OpenSSLStreamAdapter.Consistent.begun_unopened_iff {a : OpenSSLStreamAdapter Cert}
    (h : a.Consistent x509Digest true) (waiting : a.state = .wait) (setup : SSLSetup Cert)
    : ((a.begun x509Digest setup).value = 0
        ∧ (a.begun x509Digest setup).adapter.state = .connected
        ∧ (a.begun x509Digest setup).trace.countP Entry.ownOpen = 0)
      ↔ a.CompletesUnverified x509Digest setup := by
  have begun : (a.begun x509Digest setup).FromHandshake := beginSSL_fromHandshake rfl setup
  cases succeeds : a.setupSucceeds setup with
  | false =>
      have failed := @begun_of_setupFails _ x509Digest _ _ succeeds
      simp [failed, CompletesUnverified, succeeds]
  | true =>
      have connected := @continueSSL_connected_iff _ x509Digest a.prepared rfl setup.handshake
      have unverified : a.prepared.peerCertificateVerified = false :=
        (h.untouched (Or.inr waiting)).2.1
      have samePresented
          : a.prepared.Presented x509Digest setup.handshake.calls
            ↔ a.Presented x509Digest setup.handshake.calls :=
        Iff.rfl
      rw [begun_of_setupSucceeds succeeds] at begun ⊢
      unfold CompletesUnverified
      rw [connected]
      by_cases completed : a.prepared.sslError x509Digest setup.handshake = sslErrorNone
      · have waits := (h.prepared waiting).continueSSL_waiting rfl setup.handshake completed
        rw [unverified, samePresented, eq_self, true_and] at waits
        rcases begun.state with ⟨still, -⟩ | ⟨value, -, opens⟩
        · rw [connected.mpr completed] at still
          contradiction
        · simp only [value, completed, succeeds, opens, true_and]
          rw [← waits]
          split_ifs with waiting <;> simp [waiting]
      · simp [completed]

-----------------------------------------------------------------------------------------
-- Data events along a run
-----------------------------------------------------------------------------------------

/-- After the given entries, with `start_SSL` successful among them, this one signals `SE_READ`
or `SE_WRITE` only with or after the adapter's own `SE_OPEN`, and never while the adapter waits
to verify the peer.
-/
def Entry.ReadyInTurn (earlier : List (Entry Cert)) (entry : Entry Cert) : Prop :=
  earlier.any Entry.startSucceeded = true
  → entry.signalsReady = true
  → (entry.ownOpen = true ∨ earlier.any Entry.ownOpen = true)
    ∧ entry.adapter.waitingToVerifyPeerCertificate = false

/-- No data event of the trace comes between a successful `start_SSL` and the adapter's own
`SE_OPEN`, where the given entries precede the trace.
-/
def ReadyAfterOpen (earlier trace : List (Entry Cert)) : Prop :=
  Along (fun seen entry => seen ++ [entry]) Entry.ReadyInTurn earlier trace

/-- A longer trace is in order when both pieces are, the second one judged after the first. -/
theorem readyAfterOpen_append (earlier trace more : List (Entry Cert))
    : ReadyAfterOpen earlier (trace ++ more)
      ↔ ReadyAfterOpen earlier trace ∧ ReadyAfterOpen (earlier ++ trace) more := by
  unfold ReadyAfterOpen
  rw [along_append, runFrom_collect]

/-- Entries that signal data only with the adapter's own open are in order anywhere. -/
theorem readyAfterOpen_of_own {trace : List (Entry Cert)}
    (sound : ∀ entry ∈ trace, entry.Sound x509Digest auth)
    (own : ∀ entry ∈ trace, entry.signalsReady = true → entry.ownOpen = true)
    (earlier : List (Entry Cert))
    : ReadyAfterOpen earlier trace := by
  refine along_of_forall_mem ?_ earlier
  intro entry member seen _ ready
  have opened := own entry member ready
  exact ⟨Or.inl opened, ((sound entry member).ownOpen opened).2⟩

/-- Before a successful `start_SSL` every entry is in order, by induction on the trace. -/
theorem readyAfterOpen_of_unstarted {earlier trace : List (Entry Cert)}
    (unstarted : earlier.any Entry.startSucceeded = false)
    (still : ∀ entry ∈ trace, entry.startSucceeded = false)
    : ReadyAfterOpen earlier trace := by
  induction trace generalizing earlier with
  | nil => trivial
  | cons entry rest ih =>
      obtain ⟨head, tail⟩ := List.forall_mem_cons.mp still
      refine ⟨?_, ih ?_ tail⟩
      · intro started
        rw [unstarted] at started
        contradiction
      · simp [List.any_append, unstarted, head]

/-- A data event meets neither a connected adapter that has not signalled its own `SE_OPEN`, nor
a waiting one whose handshake the same event completes unverified.
-/
def System.OpenPrecedesData (x509Digest : Cert → EvpMd → List UInt8) (sys : System Cert)
    : Op Cert → Prop
  | .onEvent events _ _ setup _ =>
      sys.destroyed = false
      → (events.seRead || events.seWrite) = true
      → ¬ (sys.adapter.state = .connected ∧ sys.trace.countP Entry.ownOpen = 0)
        ∧ ¬ (events.seOpen = true
          ∧ sys.adapter.state = .wait
          ∧ sys.adapter.CompletesUnverified x509Digest setup)
  | _ => True

/-- What the trace says about `start_SSL` and the adapter's own open. -/
structure System.TraceKnown (x509Digest : Cert → EvpMd → List UInt8) (sys : System Cert)
    : Prop where
  sound : sys.Sound x509Digest true
  fresh : sys.adapter.state = .none → sys.trace.any Entry.startSucceeded = false
  running
    : 1 ≤ sys.adapter.state.rank
      → sys.adapter.state.rank ≤ 3
      → sys.trace.any Entry.startSucceeded = true
  progress : Progress (System.initial Cert .closed).adapter sys.adapter sys.trace

/-- Before any action the trace says nothing. -/
theorem System.initial_traceKnown (streamState : StreamState)
    : (System.initial Cert streamState).TraceKnown x509Digest where
  sound := System.initial_sound streamState
  fresh := fun _ => rfl
  running := by simp [System.initial, SSLState.rank]
  progress := .idle _ rfl

/-- An adapter in the clear stays there or ends, unless `start_SSL` succeeds. -/
theorem OpenSSLStreamAdapter.Consistent.perform_fresh {a : OpenSSLStreamAdapter Cert}
    (h : a.Consistent x509Digest auth) (fresh : a.state = .none) (streamState : StreamState)
    (op : Op Cert)
    : ((a.perform x509Digest streamState op).adapter.state = .none
        ∧ (a.perform x509Digest streamState op).trace.any Entry.startSucceeded = false)
      ∨ (a.perform x509Digest streamState op).adapter.state.rank = 4
      ∨ (a.perform x509Digest streamState op).trace.any Entry.startSucceeded = true
        ∧ (a.perform x509Digest streamState op).adapter.state ≠ .none := by
  cases op with
  | startSSL setup =>
      refine Or.inr ?_
      unfold OpenSSLStreamAdapter.perform OpenSSLStreamAdapter.startSSL
      dsimp only
      rw [if_neg (by simp [fresh])]
      split_ifs with waiting failed
      · exact Or.inr ⟨rfl, by simp⟩
      · exact Or.inl (by simp [SSLState.rank])
      · refine Or.inr ⟨by simp [Entry.startSucceeded], ?_⟩
        have begun : (a.begun x509Digest setup).FromHandshake := beginSSL_fromHandshake rfl setup
        rcases begun.state with ⟨connecting, -⟩ | ⟨-, connected, -⟩
        · simp [connecting]
        · simp [connected]
  | onEvent events err streamState setup handshake =>
      have opening
          : a.onOpen x509Digest events setup = ⟨a, [], { seOpen := events.seOpen }, false⟩ := by
        rcases @onOpen_cases _ x509Digest a events setup
          with ⟨-, same⟩ | ⟨⟨-, waiting⟩, -⟩ | ⟨⟨-, waiting⟩, -⟩
        · exact same
        · simp [fresh] at waiting
        · simp [fresh] at waiting
      rcases @onReadWrite_cases _ x509Digest a events handshake
        with ⟨-, forwarded, ready, -⟩ | ⟨⟨-, connecting⟩, -⟩ | ⟨⟨-, connecting⟩, -⟩
      · cases closes : events.seClose with
        | true =>
            refine Or.inr (Or.inl ?_)
            simp [OpenSSLStreamAdapter.perform, OpenSSLStreamAdapter.onEvent, opening, ready,
              closes, cleanup_state, fresh, SSLState.rank]
        | false =>
            refine Or.inl ⟨?_, ?_⟩
            · simp [OpenSSLStreamAdapter.perform, OpenSSLStreamAdapter.onEvent, opening, ready,
                closes, fresh]
            · simp only [OpenSSLStreamAdapter.perform, OpenSSLStreamAdapter.onEvent, opening,
                ready]
              simp only [Bool.false_eq_true, if_false, List.append_nil, List.nil_append]
              split_ifs <;> rfl
      · simp [fresh] at connecting
      · simp [fresh] at connecting
  | setPeerCertificateDigest digestAlg digestVal =>
      have absent := (h.untouched (Or.inl fresh)).1
      refine Or.inl ?_
      rcases @setPeerCertificateDigest_cases _ x509Digest a digestAlg digestVal
        with ⟨-, same, silent⟩ | ⟨-, -, set⟩ | ⟨-, cert, recorded, -⟩ | ⟨-, cert, recorded, -⟩
      · simp [OpenSSLStreamAdapter.perform, same, silent, fresh]
      · simp [OpenSSLStreamAdapter.perform, set, withDigest, fresh]
      · simp [absent] at recorded
      · simp [absent] at recorded
  | dtlsHandshakeTimeout handshake =>
      have unarmed : a.handshakeTimerWatcher ≠ .armed := by
        intro armed
        simp [h.armed armed] at fresh
      exact Or.inl (by simp [OpenSSLStreamAdapter.perform, unarmed, fresh])
  | setClientAuthEnabled enabled => exact Or.inl ⟨fresh, rfl⟩
  | setIdentity identity => exact Or.inl ⟨fresh, rfl⟩
  | setDtlsSrtpCryptoSuites ciphers =>
      obtain ⟨srtpCiphers, framed⟩ := setDtlsSrtpCryptoSuites_frame a ciphers
      refine Or.inl ⟨?_, rfl⟩
      simpa only [OpenSSLStreamAdapter.perform, framed] using fresh
  | destroy =>
      refine Or.inr (Or.inl ?_)
      simp [OpenSSLStreamAdapter.perform, cleanup_state, fresh, SSLState.rank]

/-- A step keeps what the trace says. -/
theorem System.TraceKnown.step {sys : System Cert} (h : sys.TraceKnown x509Digest) {op : Op Cert}
    (kept : op ≠ .setClientAuthEnabled false)
    : (sys.step x509Digest op).TraceKnown x509Digest := by
  cases gone : sys.destroyed with
  | true =>
      rwa [System.step_destroyed x509Digest gone]
  | false =>
      have adapter := sys.step_adapter x509Digest op
      have trace := sys.step_trace x509Digest op
      simp only [gone, Bool.false_eq_true, if_false, System.stepTrace] at adapter trace
      have forward := h.sound.consistent.perform_progress sys.streamState op
      have leaves (fresh : sys.adapter.state = .none) :=
        h.sound.consistent.perform_fresh fresh sys.streamState op
      have fresh_of_rank {state : SSLState} (zero : state.rank = 0) : state = .none := by
        cases state <;> simp [SSLState.rank] at zero ⊢
      refine {
        sound := h.sound.step (fun _ => kept)
        fresh := ?_
        running := ?_
        progress := ?_
      }
      · rw [adapter, trace]
        intro stays
        have rank := forward.forward
        rw [stays] at rank
        have fresh := fresh_of_rank (Nat.le_zero.mp rank)
        rw [List.any_append, h.fresh fresh, Bool.false_or]
        rcases leaves fresh with ⟨-, silent⟩ | ended | ⟨-, left⟩
        · exact silent
        · simp [stays, SSLState.rank] at ended
        · exact absurd stays left
      · rw [adapter, trace]
        intro started running
        rw [List.any_append, Bool.or_eq_true]
        rcases Nat.eq_zero_or_pos sys.adapter.state.rank with zero | positive
        · rcases leaves (fresh_of_rank zero) with ⟨stays, -⟩ | ended | ⟨succeeded, -⟩
          · simp [stays, SSLState.rank] at started
          · omega
          · exact Or.inr succeeded
        · exact Or.inl (h.running positive (Nat.le_trans forward.forward running))
      · rw [adapter, trace]
        exact h.progress.trans forward

/-- A data event that finds the adapter connected after the `SE_OPEN` branch is passed on, behind
the entries of that branch.
-/
theorem onEvent_forwards (a : OpenSSLStreamAdapter Cert) {events : StreamEvents} (err : Int)
    {setup : SSLSetup Cert} (handshake : Handshake Cert)
    (raised : (events.seRead || events.seWrite) = true)
    (going : (a.onOpen x509Digest events setup).value.2 = false)
    (connected : (a.onOpen x509Digest events setup).adapter.state = .connected)
    : ∃ entry : Entry Cert,
        (a.onEvent x509Digest events err setup handshake).trace
          = (a.onOpen x509Digest events setup).trace ++ [entry]
        ∧ entry.signalsReady = true
        ∧ entry.ownOpen = false
        ∧ entry.adapter.waitingToVerifyPeerCertificate
          = (a.onOpen x509Digest events setup).adapter.waitingToVerifyPeerCertificate := by
  rcases @onReadWrite_cases _ x509Digest (a.onOpen x509Digest events setup).adapter events
      handshake
    with ⟨-, forwarded, ready, announces⟩ | ⟨⟨-, connecting⟩, -⟩ | ⟨⟨-, connecting⟩, -⟩
  · have signalled := announces.mpr ⟨raised, Or.inr connected⟩
    have any (opens closes : Bool)
        : ({ forwarded with seOpen := opens, seClose := closes } : StreamEvents).any = true := by
      rcases Bool.or_eq_true_iff.mp signalled with reads | writes
      · simp [StreamEvents.any, reads]
      · simp [StreamEvents.any, writes]
    refine ⟨⟨.signalEvent .onEvent
      {
        forwarded with
        seOpen := (a.onOpen x509Digest events setup).value.1.seOpen
        seClose := events.seClose
      } (if events.seClose then err else 0),
      if events.seClose then (a.onOpen x509Digest events setup).adapter.cleanup
      else (a.onOpen x509Digest events setup).adapter⟩, ?_, signalled, rfl, ?_⟩
    · simp [onEvent, going, ready, any]
    · dsimp only
      split_ifs
      · exact cleanup_waiting _
      · rfl
  · simp [connected] at connecting
  · simp [connected] at connecting

/-- Before the handshake is over the adapter has not opened. -/
theorem System.TraceKnown.unopened {sys : System Cert} (h : sys.TraceKnown x509Digest)
    (early : sys.adapter.state.rank ≤ 2)
    : sys.trace.countP Entry.ownOpen = 0 := by
  rcases h.progress.opens with none | ⟨-, -, late⟩
  · exact none
  · omega

/-- The `SE_OPEN` branch leaves a connected adapter without its own open exactly in the two
situations that `OpenPrecedesData` excludes.
-/
theorem System.TraceKnown.connected_unopened_iff {sys : System Cert}
    (h : sys.TraceKnown x509Digest) (events : StreamEvents) (setup : SSLSetup Cert)
    : ((sys.adapter.onOpen x509Digest events setup).value.2 = false
        ∧ (sys.adapter.onOpen x509Digest events setup).adapter.state = .connected
        ∧ (sys.trace ++ (sys.adapter.onOpen x509Digest events setup).trace).countP Entry.ownOpen
          = 0)
      ↔ (sys.adapter.state = .connected ∧ sys.trace.countP Entry.ownOpen = 0)
        ∨ (events.seOpen = true
          ∧ sys.adapter.state = .wait
          ∧ sys.adapter.CompletesUnverified x509Digest setup) := by
  rcases @onOpen_cases _ x509Digest sys.adapter events setup
    with ⟨quiet, same⟩ | ⟨⟨opens, waiting⟩, succeeded, same⟩ | ⟨⟨opens, waiting⟩, failed, same⟩
  · rw [same, List.append_nil]
    constructor
    · exact fun unopened => Or.inl unopened.2
    · intro either
      rcases either with unopened | ⟨opens, waiting, -⟩
      · exact ⟨rfl, unopened⟩
      · exact absurd ⟨opens, waiting⟩ quiet
  · have unverified := h.sound.consistent.begun_unopened_iff waiting setup
    have before := h.unopened (by simp [waiting, SSLState.rank])
    rw [same, List.countP_append, before, Nat.zero_add]
    simp [← unverified, succeeded, waiting, opens]
  · have unverified := h.sound.consistent.begun_unopened_iff waiting setup
    rw [same]
    simp [← unverified, failed, waiting]

/-- The `SE_OPEN` branch gets connected only a started adapter, and then does not fail. -/
theorem onOpen_connected {a : OpenSSLStreamAdapter Cert} {events : StreamEvents}
    {setup : SSLSetup Cert}
    (connected : (a.onOpen x509Digest events setup).adapter.state = .connected)
    : 1 ≤ a.state.rank
      ∧ a.state.rank ≤ 3
      ∧ (a.onOpen x509Digest events setup).value.2 = false := by
  rcases @onOpen_cases _ x509Digest a events setup
    with ⟨-, same⟩ | ⟨⟨-, waiting⟩, -, same⟩ | ⟨-, -, same⟩
  · rw [same] at connected ⊢
    have state : a.state = .connected := connected
    simp [state, SSLState.rank]
  · simp [waiting, SSLState.rank, same]
  · rw [same] at connected
    simp at connected

/-- A data event that finds the adapter connected after the `SE_OPEN` branch is in order exactly
when the adapter's own open is on the trace by then.
-/
theorem System.TraceKnown.forwarded_iff {sys : System Cert} (h : sys.TraceKnown x509Digest)
    {events : StreamEvents} (err : Int) {setup : SSLSetup Cert} (handshake : Handshake Cert)
    (raised : (events.seRead || events.seWrite) = true)
    (connected : (sys.adapter.onOpen x509Digest events setup).adapter.state = .connected)
    : ReadyAfterOpen sys.trace
        (sys.adapter.onEvent x509Digest events err setup handshake).trace
      ↔ (sys.trace ++ (sys.adapter.onOpen x509Digest events setup).trace).countP Entry.ownOpen
        ≠ 0 := by
  obtain ⟨started, running, going⟩ := onOpen_connected connected
  obtain ⟨entry, trace, ready, notOwn, waits⟩ :=
    onEvent_forwards sys.adapter err handshake raised going connected
  have opening := @onOpen_progress _ x509Digest sys.adapter events setup
  have sound := h.sound.consistent.onOpen events setup
  have own
      : ∀ entry ∈ (sys.adapter.onOpen x509Digest events setup).trace,
          entry.signalsReady = true → entry.ownOpen = true := by
    intro entry member signals
    have begun : (sys.adapter.begun x509Digest setup).FromHandshake :=
      beginSSL_fromHandshake rfl setup
    rcases @onOpen_cases _ x509Digest sys.adapter events setup
      with ⟨-, same⟩ | ⟨-, -, same⟩ | ⟨-, -, same⟩
    · simp [same] at member
    · rw [same] at member
      rwa [← (begun.entries entry member).signalsReady]
    · simp [same] at going
  rw [trace, readyAfterOpen_append]
  constructor
  · intro ⟨_, inTurn, _⟩ unopened
    have opened := (inTurn (by simp [h.running started running]) ready).1
    rw [notOwn, List.any_eq_true] at opened
    rcases opened with impossible | ⟨other, member, isOpen⟩
    · contradiction
    · exact List.countP_eq_zero.mp unopened other member isOpen
  · intro opened
    refine ⟨readyAfterOpen_of_own sound.trace own sys.trace, ?_, trivial⟩
    intro _ _
    refine ⟨Or.inr ?_, ?_⟩
    · obtain ⟨other, member, isOpen⟩ := List.countP_pos_iff.mp (Nat.pos_of_ne_zero opened)
      exact List.any_eq_true.mpr ⟨other, member, isOpen⟩
    · rw [waits]
      exact (h.progress.trans opening).settled (Or.inr (Nat.pos_of_ne_zero opened))

/-- One step keeps data events behind the open exactly when it meets no adapter that is
connected and unopened.
-/
theorem System.TraceKnown.readyAfterOpen_iff {sys : System Cert} (h : sys.TraceKnown x509Digest)
    {op : Op Cert} (kept : op ≠ .setClientAuthEnabled false)
    : ReadyAfterOpen sys.trace (sys.stepTrace x509Digest op)
      ↔ sys.OpenPrecedesData x509Digest op := by
  cases gone : sys.destroyed with
  | true =>
      have silent : sys.stepTrace x509Digest op = [] := by simp [System.stepTrace, gone]
      rw [silent]
      refine iff_of_true trivial ?_
      cases op <;> simp [System.OpenPrecedesData, gone]
  | false =>
      have sound := h.sound.consistent.perform sys.streamState (fun _ => kept)
      have performed := h.sound.consistent.performed sys.streamState op
      have own
          (noEvent
            : ∀ events err streamState setup handshake,
                op ≠ .onEvent events err streamState setup handshake)
          : ∀ entry ∈ (sys.adapter.perform x509Digest sys.streamState op).trace,
              entry.signalsReady = true → entry.ownOpen = true := by
        intro entry member signals
        cases performed entry member with
        | handshake fromHandshake => rwa [← fromHandshake.signalsReady]
        | closed | startSSL | startSSLReturned => simp [Entry.signalsReady] at signals
        | forwarded => exact absurd rfl (noEvent _ _ _ _ _)
      simp only [System.stepTrace, gone, Bool.false_eq_true, if_false]
      cases op with
      | onEvent events err streamState setup handshake =>
          have unopened := h.connected_unopened_iff events setup
          have opening := @onOpen_progress _ x509Digest sys.adapter events setup
          by_cases meets
            : (events.seRead || events.seWrite) = true
              ∧ (sys.adapter.onOpen x509Digest events setup).adapter.state = .connected
          · obtain ⟨raised, connected⟩ := meets
            obtain ⟨-, -, going⟩ := onOpen_connected connected
            have decides := h.forwarded_iff err handshake raised connected
            simp only [going, connected, true_and] at unopened
            change ReadyAfterOpen sys.trace
              (sys.adapter.onEvent x509Digest events err setup handshake).trace ↔ _
            rw [decides, ne_eq, unopened]
            simp only [System.OpenPrecedesData, gone, raised, forall_const, not_or]
          · refine iff_of_true ?_ ?_
            · by_cases fresh : sys.adapter.state = .none
              · refine readyAfterOpen_of_unstarted (h.fresh fresh) ?_
                intro entry member
                cases performed entry member with
                | handshake fromHandshake => exact fromHandshake.start.2
                | closed | forwarded => rfl
              · refine readyAfterOpen_of_own sound.trace ?_ sys.trace
                intro entry member signals
                cases performed entry member with
                | handshake fromHandshake => rwa [← fromHandshake.signalsReady]
                | closed => simp [Entry.signalsReady] at signals
                | forwarded signalled signalError moment opens announces =>
                    obtain ⟨raised, state, -⟩ := announces signals
                    rcases state with clear | connected
                    · have forward := opening.forward
                      rw [clear] at forward
                      revert forward fresh
                      cases sys.adapter.state <;> simp [SSLState.rank]
                    · exact absurd ⟨raised, connected⟩ meets
            · intro _ raised
              rw [← not_or]
              intro situation
              exact meets ⟨raised, (unopened.mpr situation).2.1⟩
      | _ => exact iff_of_true (readyAfterOpen_of_own sound.trace (own (by simp)) sys.trace) trivial

/-- In a run with client authentication enabled throughout, no data event is signalled between a
successful `start_SSL` and the adapter's own `SE_OPEN`, nor while the adapter waits to verify
the peer, if and only if no data event meets an adapter that is connected, or about to be, and
has not signalled `SE_OPEN`.
-/
theorem readyAfterOpen_iff_openPrecedesData (x509Digest : Cert → EvpMd → List UInt8)
    (streamState : StreamState) (ops : List (Op Cert))
    (authKept : ∀ op ∈ ops, op ≠ .setClientAuthEnabled false)
    : ReadyAfterOpen [] (System.run x509Digest streamState ops).trace
      ↔ Along (System.step x509Digest) (System.OpenPrecedesData x509Digest)
          (System.initial Cert streamState) ops := by
  have authAlong
      : Along (System.step x509Digest) (fun _ op => op ≠ .setClientAuthEnabled false)
          (System.initial Cert streamState) ops :=
    along_of_forall_mem (fun op member _ => authKept op member) _
  have initial : (System.initial Cert streamState).TraceKnown x509Digest :=
    System.initial_traceKnown streamState
  have splits
      : ∀ (sys : System Cert) (op : Op Cert),
          sys.TraceKnown x509Digest
          → op ≠ .setClientAuthEnabled false
          → (ReadyAfterOpen [] (sys.step x509Digest op).trace
            ↔ ReadyAfterOpen [] sys.trace ∧ sys.OpenPrecedesData x509Digest op) := by
    intro sys op known kept
    rw [System.step_trace, readyAfterOpen_append, List.nil_append,
      known.readyAfterOpen_iff kept]
  have preserved
      : ∀ (sys : System Cert) (op : Op Cert),
          sys.TraceKnown x509Digest
          → op ≠ .setClientAuthEnabled false
          → (sys.step x509Digest op).TraceKnown x509Digest :=
    fun _ _ known kept => known.step kept
  have whole
      : ReadyAfterOpen [] (System.run x509Digest streamState ops).trace
        ↔ ReadyAfterOpen [] (System.initial Cert streamState).trace
          ∧ Along (System.step x509Digest) (System.OpenPrecedesData x509Digest)
              (System.initial Cert streamState) ops :=
    @runFrom_iff_along _ _ _ _ _ (fun sys => ReadyAfterOpen [] sys.trace) _ preserved splits
      _ _ initial authAlong
  rw [whole]
  exact and_iff_right trivial

/-- The peer's certificate is verified while the handshake completes; then data arrives. -/
def readsAfterOpen : List (Op Bool) :=
  [
    .setPeerCertificateDigest "md5" (twoCertificates true .md5),
    .startSSL { handshake := { calls := [⟨true, 0⟩], getError := fun _ => 0 } },
    .onEvent { seRead := true } 0 .opened { handshake := { calls := [], getError := fun _ => 0 } }
      { calls := [], getError := fun _ => 0 }
  ]

/-- That run meets the condition and keeps the order. -/
theorem readsAfterOpen_inOrder
    : ReadyAfterOpen [] (System.run twoCertificates .opened readsAfterOpen).trace
      ∧ (System.run twoCertificates .opened readsAfterOpen).trace.countP Entry.signalsReady = 2 := by
  constructor
  · rw [readyAfterOpen_iff_openPrecedesData twoCertificates .opened readsAfterOpen
      (by simp [readsAfterOpen])]
    refine ⟨trivial, trivial, ?_, trivial⟩
    intro _ _
    refine ⟨?_, ?_⟩
    · decide
    · intro ⟨opens, _⟩
      exact absurd opens (by decide)
  · decide

/-- The handshake completes before any digest is configured; then data arrives. -/
def readsUnverified : List (Op Bool) :=
  [
    .startSSL { handshake := { calls := [⟨true, 0⟩], getError := fun _ => 0 } },
    .onEvent { seRead := true } 0 .opened { handshake := { calls := [], getError := fun _ => 0 } }
      { calls := [], getError := fun _ => 0 }
  ]

/-- In that run, with client authentication enabled throughout, `SE_READ` is signalled while the
adapter waits to verify the peer.
-/
theorem readsUnverified_outOfOrder
    : (∀ op ∈ readsUnverified, op ≠ .setClientAuthEnabled false)
      ∧ ¬ ReadyAfterOpen [] (System.run twoCertificates .opened readsUnverified).trace := by
  refine ⟨by simp [readsUnverified], ?_⟩
  intro holds
  obtain ⟨-, -, -, -, inTurn, -⟩ := holds
  have settled := (inTurn (by decide) (by decide)).2
  revert settled
  decide

end RtcBase.SslStream
