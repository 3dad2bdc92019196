import RtcBase.SslStream.Progress

/-! Configuring the peer's digest before and after the handshake. Before, a handshake that
completes with the configured certificate opens the stream, and one with another certificate
fails. After, the certificate has not been kept, so the adapter neither verifies nor rejects
it: for no adapter, certificate and digest do the two orders agree.
-/

namespace RtcBase.SslStream

open RtcBase.Library OpenSSLStreamAdapter

variable {Cert : Type} {x509Digest : Cert → EvpMd → List UInt8}

-----------------------------------------------------------------------------------------
-- A handshake that completes with one certificate
-----------------------------------------------------------------------------------------

/-- A data event of the wrapped stream that carries one step of the handshake. -/
structure Delivery (Cert : Type) where
  events : StreamEvents
  err : Int
  setup : SSLSetup Cert
  handshake : Handshake Cert
  data : (events.seRead || events.seWrite) = true
  noOpen : events.seOpen = false
  noClose : events.seClose = false

/-- The delivery as an action on the adapter. -/
def Delivery.op (delivery : Delivery Cert) : Op Cert :=
  .onEvent delivery.events delivery.err .opened delivery.setup delivery.handshake

/-- OpenSSL's part of a handshake that completes with the given leaf certificate: every leaf it
presents is that one, it presents it at least once, it gives up when a callback rejects, and
otherwise asks to be called again until the last step.
-/
structure CompletesWith (cert : Cert) (rounds : List (Delivery Cert)) (last : Delivery Cert)
    : Prop where
  leaf
    : ∀ round ∈ rounds ++ [last], ∀ call ∈ round.handshake.calls,
        call.depth ≤ 0 → call.cert = cert
  presented
    : ∃ round ∈ rounds ++ [last], ∃ call ∈ round.handshake.calls, call.depth ≤ 0
  again
    : ∀ round ∈ rounds,
        round.handshake.getError true = sslErrorWantRead
        ∨ round.handshake.getError true = sslErrorWantWrite
  completes : last.handshake.getError true = sslErrorNone
  rejects
    : ∀ round ∈ rounds ++ [last],
        round.handshake.getError false ≠ sslErrorNone
        ∧ round.handshake.getError false ≠ sslErrorWantRead
        ∧ round.handshake.getError false ≠ sslErrorWantWrite

/-- The adapter around an open stream, with nothing on the trace yet. -/
def System.around (a : OpenSSLStreamAdapter Cert) : System Cert :=
  { adapter := a, streamState := .opened, streamOpened := true }

/-- The system after the handshake. -/
def System.deliver (x509Digest : Cert → EvpMd → List UInt8) (sys : System Cert)
    (rounds : List (Delivery Cert)) (last : Delivery Cert)
    : System Cert :=
  runFrom (System.step x509Digest) sys ((rounds ++ [last]).map Delivery.op)

/-- The peer is accepted: the adapter is connected and verified, and `SE_OPEN` was signalled
exactly once.
-/
def System.Accepted (sys : System Cert) : Prop :=
  sys.adapter.state = .connected
  ∧ sys.adapter.peerCertificateVerified = true
  ∧ sys.trace.countP Entry.signalsOpen = 1

/-- The digest before the handshake and the handshake before the digest lead to the same
outcome: the certificate with that digest is accepted, any other one rejected.
-/
def OrderIndependent (x509Digest : Cert → EvpMd → List UInt8) (a : OpenSSLStreamAdapter Cert)
    (cert : Cert) (digestAlg : String) (digestVal : List UInt8) (rounds : List (Delivery Cert))
    (last : Delivery Cert)
    : Prop :=
  let setDigest : Op Cert := .setPeerCertificateDigest digestAlg digestVal
  let digestFirst := ((System.around a).step x509Digest setDigest).deliver x509Digest rounds last
  let completed := (System.around a).deliver x509Digest rounds last
  let handshakeFirst := completed.step x509Digest setDigest
  let answer := (completed.adapter.setPeerCertificateDigest x509Digest digestAlg digestVal).value
  if computeDigest x509Digest cert digestAlg evpMaxMdSize = some digestVal then
    digestFirst.Accepted ∧ handshakeFirst.Accepted
  else
    (digestFirst.adapter.state = .error ∧ digestFirst.trace.countP Entry.signalsOpen = 0)
    ∧ answer = (false, .verificationFailed)
    ∧ handshakeFirst.adapter.state = .error

-----------------------------------------------------------------------------------------
-- One delivery
-----------------------------------------------------------------------------------------

/-- Stopping the timer changes nothing else. -/
theorem stopTimer_frame (a : OpenSSLStreamAdapter Cert)
    : ∃ handshakeTimerWatcher, a.stopTimer = { a with handshakeTimerWatcher } := by
  unfold stopTimer
  split <;> exact ⟨_, rfl⟩

/-- A step that asks to be called again changes nothing but the timer behind its callbacks. -/
theorem continueSSL_again {a : OpenSSLStreamAdapter Cert} {handshake : Handshake Cert}
    (again
      : a.sslError x509Digest handshake = sslErrorWantRead
        ∨ a.sslError x509Digest handshake = sslErrorWantWrite)
    : ∃ handshakeTimerWatcher,
        (a.continueSSL x509Digest handshake).adapter
          = {
              (a.stopTimer.runVerifyCallbacks x509Digest handshake.calls).adapter with
              handshakeTimerWatcher
            } := by
  have incomplete : a.sslError x509Digest handshake ≠ sslErrorNone := by
    rcases again with read | write
    · rw [read]
      decide
    · rw [write]
      decide
  unfold sslError at again incomplete
  unfold continueSSL
  dsimp only
  rw [if_neg incomplete]
  split_ifs with wantRead wantWrite
  · split
    · exact ⟨_, rfl⟩
    · unfold startTimer
      split_ifs
      · split <;> exact ⟨_, rfl⟩
      · exact ⟨_, rfl⟩
  · exact ⟨_, rfl⟩
  all_goals exact absurd again (not_or.mpr ⟨wantRead, wantWrite⟩)

/-- A delivery to a connecting adapter is one step of the negotiation. -/
theorem onEvent_delivery {a : OpenSSLStreamAdapter Cert} (connecting : a.state = .connecting)
    (delivery : Delivery Cert)
    : a.onEvent x509Digest delivery.events delivery.err delivery.setup delivery.handshake
      = if (a.continueSSL x509Digest delivery.handshake).value = 0 then
          ⟨(a.continueSSL x509Digest delivery.handshake).adapter,
            (a.continueSSL x509Digest delivery.handshake).trace, ()⟩
        else
          ⟨((a.continueSSL x509Digest delivery.handshake).adapter.errorInfo
              (a.continueSSL x509Digest delivery.handshake).value true).adapter,
            (a.continueSSL x509Digest delivery.handshake).trace
              ++ ((a.continueSSL x509Digest delivery.handshake).adapter.errorInfo
                  (a.continueSSL x509Digest delivery.handshake).value true).trace, ()⟩ := by
  have opening
      : a.onOpen x509Digest delivery.events delivery.setup = ⟨a, [], {}, false⟩ := by
    simp [onOpen, delivery.noOpen]
  rcases @onReadWrite_cases _ x509Digest a delivery.events delivery.handshake
    with ⟨idle, -⟩ | ⟨-, succeeded, same⟩ | ⟨-, failed, same⟩
  · exact absurd ⟨delivery.data, connecting⟩ idle
  · rw [if_pos succeeded]
    simp [onEvent, opening, same, delivery.noClose, StreamEvents.any]
  · rw [if_neg failed]
    simp [onEvent, opening, same]

/-- What a delivery makes of the system. -/
theorem System.step_delivery {sys : System Cert} (alive : sys.destroyed = false)
    (delivery : Delivery Cert)
    : (sys.step x509Digest delivery.op).destroyed = false
      ∧ (sys.step x509Digest delivery.op).adapter
        = (sys.adapter.onEvent x509Digest delivery.events delivery.err delivery.setup
            delivery.handshake).adapter
      ∧ (sys.step x509Digest delivery.op).trace
        = sys.trace
          ++ (sys.adapter.onEvent x509Digest delivery.events delivery.err delivery.setup
              delivery.handshake).trace := by
  simp [System.step, Delivery.op, alive, OpenSSLStreamAdapter.perform]

/-- No leaf among the calls is one that the adapter would reject. -/
def OpenSSLStreamAdapter.Tolerates (x509Digest : Cert → EvpMd → List UInt8)
    (a : OpenSSLStreamAdapter Cert) (calls : List (VerifyCall Cert))
    : Prop :=
  ∀ call ∈ calls,
    call.depth ≤ 0 → a.peerCertificateDigestAlgorithm = "" ∨ a.DigestMatches x509Digest call.cert

/-- Tolerated callbacks all return 1, by induction on the calls. -/
theorem OpenSSLStreamAdapter.Consistent.runVerifyCallbacks_tolerated
    {a : OpenSSLStreamAdapter Cert} {auth : Bool} (h : a.Consistent x509Digest auth)
    (connecting : a.state = .connecting) {calls : List (VerifyCall Cert)}
    (tolerates : a.Tolerates x509Digest calls)
    : (a.runVerifyCallbacks x509Digest calls).value = true := by
  induction calls generalizing a with
  | nil => rfl
  | cons call rest ih =>
      obtain ⟨head, tail⟩ := List.forall_mem_cons.mp tolerates
      obtain ⟨cert, flag, framed⟩ := @sslVerifyCallback_frame _ x509Digest a call
      have answer : (a.sslVerifyCallback x509Digest call).2 = 1 := by
        by_cases ignored : call.depth > 0 ∨ a.peerCertificateDigestAlgorithm = ""
            ∨ a.peerCertificateVerified = true
        · rw [sslVerifyCallback_ignored ignored]
        · simp only [not_or, Bool.not_eq_true, gt_iff_lt, Int.not_lt] at ignored
          obtain ⟨leaf, configured, unverified⟩ := ignored
          have matched := (head leaf).resolve_left configured
          rw [sslVerifyCallback_checked h leaf configured unverified, if_pos matched]
      have later := ih (h.sslVerifyCallback connecting call) (by rw [framed]; exact connecting)
        (by rw [framed]; exact tail)
      simp [OpenSSLStreamAdapter.runVerifyCallbacks, answer, later]

/-- An unverified adapter with a digest rejects a leaf without it, by induction on the calls. -/
theorem OpenSSLStreamAdapter.Consistent.runVerifyCallbacks_rejected
    {a : OpenSSLStreamAdapter Cert} {auth : Bool} (h : a.Consistent x509Digest auth)
    (configured : a.peerCertificateDigestAlgorithm ≠ "")
    (unverified : a.peerCertificateVerified = false) {calls : List (VerifyCall Cert)}
    (presented : ∃ call ∈ calls, call.depth ≤ 0)
    (mismatched : ∀ call ∈ calls, call.depth ≤ 0 → ¬ a.DigestMatches x509Digest call.cert)
    : (a.runVerifyCallbacks x509Digest calls).value = false := by
  induction calls with
  | nil => simp at presented
  | cons call rest ih =>
      obtain ⟨head, tail⟩ := List.forall_mem_cons.mp mismatched
      by_cases leaf : call.depth ≤ 0
      · have checked := sslVerifyCallback_checked h leaf configured unverified
        rw [if_neg (head leaf)] at checked
        simp [OpenSSLStreamAdapter.runVerifyCallbacks, checked]
      · have ignored : call.depth > 0 := by omega
        have later := ih (by simpa [leaf] using presented) tail
        simp [OpenSSLStreamAdapter.runVerifyCallbacks,
          sslVerifyCallback_ignored (Or.inl ignored), later]

-----------------------------------------------------------------------------------------
-- All deliveries of a handshake
-----------------------------------------------------------------------------------------

/-- The handshake is under way under the given digest, and nothing has been opened. -/
structure System.Negotiating (x509Digest : Cert → EvpMd → List UInt8) (digestAlg : String)
    (digestVal : List UInt8) (sys : System Cert)
    : Prop where
  alive : sys.destroyed = false
  consistent : sys.adapter.Consistent x509Digest true
  connecting : sys.adapter.state = .connecting
  algorithm : sys.adapter.peerCertificateDigestAlgorithm = digestAlg
  value : sys.adapter.peerCertificateDigestValue = digestVal
  quiet : sys.trace.countP Entry.signalsOpen = 0

/-- What the callbacks of a tolerated delivery say, and whether they end verified. -/
theorem System.Negotiating.tolerated {digestAlg : String} {digestVal : List UInt8}
    {sys : System Cert} (h : sys.Negotiating x509Digest digestAlg digestVal)
    {handshake : Handshake Cert} (tolerates : sys.adapter.Tolerates x509Digest handshake.calls)
    : sys.adapter.sslError x509Digest handshake = handshake.getError true
      ∧ ((sys.adapter.stopTimer.runVerifyCallbacks x509Digest
            handshake.calls).adapter.peerCertificateVerified = true
        ↔ sys.adapter.peerCertificateVerified = true
          ∨ sys.adapter.Presented x509Digest handshake.calls) := by
  obtain ⟨watcher, stopped⟩ := stopTimer_frame sys.adapter
  have connecting : sys.adapter.stopTimer.state = .connecting := by
    rw [stopTimer_state, h.connecting]
  have sameTolerates : sys.adapter.stopTimer.Tolerates x509Digest handshake.calls := by
    rw [stopped]
    exact tolerates
  have verified := h.consistent.stopTimer.runVerifyCallbacks_verified_iff connecting
    handshake.calls
  constructor
  · unfold OpenSSLStreamAdapter.sslError
    rw [h.consistent.stopTimer.runVerifyCallbacks_tolerated connecting sameTolerates]
  · rw [verified, stopped]
    exact Iff.rfl

/-- A tolerated delivery after which OpenSSL asks to be called again keeps the handshake under
way.
-/
theorem System.Negotiating.again {digestAlg : String} {digestVal : List UInt8}
    {sys : System Cert} (h : sys.Negotiating x509Digest digestAlg digestVal)
    {delivery : Delivery Cert}
    (tolerates : sys.adapter.Tolerates x509Digest delivery.handshake.calls)
    (again
      : delivery.handshake.getError true = sslErrorWantRead
        ∨ delivery.handshake.getError true = sslErrorWantWrite)
    : (sys.step x509Digest delivery.op).Negotiating x509Digest digestAlg digestVal
      ∧ ((sys.step x509Digest delivery.op).adapter.peerCertificateVerified = true
        ↔ sys.adapter.peerCertificateVerified = true
          ∨ sys.adapter.Presented x509Digest delivery.handshake.calls) := by
  obtain ⟨answer, verified⟩ := h.tolerated tolerates
  rw [← answer] at again
  obtain ⟨watcher, continued⟩ := continueSSL_again again
  obtain ⟨cert, flag, framed⟩ := @runVerifyCallbacks_frame _ x509Digest sys.adapter.stopTimer
    delivery.handshake.calls
  obtain ⟨stoppedWatcher, stopped⟩ := stopTimer_frame sys.adapter
  have fromHandshake : (sys.adapter.continueSSL x509Digest delivery.handshake).FromHandshake :=
    continueSSL_fromHandshake h.connecting delivery.handshake
  have succeeded : (sys.adapter.continueSSL x509Digest delivery.handshake).value = 0 :=
    (continueSSL_value_eq_zero _ _).mpr (Or.inr again)
  obtain ⟨alive, adapter, trace⟩ := @System.step_delivery _ x509Digest _ h.alive delivery
  have sound := h.consistent.onEvent delivery.events delivery.err delivery.setup
    delivery.handshake
  rw [onEvent_delivery h.connecting, if_pos succeeded] at adapter trace sound
  have still
      : (sys.adapter.continueSSL x509Digest delivery.handshake).adapter.state = .connecting := by
    rw [continued, framed, stopped]
    exact h.connecting
  refine ⟨{
    alive
    consistent := by
      rw [adapter]
      exact sound.consistent
    connecting := by rw [adapter, still]
    algorithm := by
      rw [adapter, continued, framed, stopped]
      exact h.algorithm
    value := by
      rw [adapter, continued, framed, stopped]
      exact h.value
    quiet := by
      rw [trace, List.countP_append, h.quiet, Nat.zero_add, fromHandshake.countP_signalsOpen]
      rcases fromHandshake.state with ⟨-, none⟩ | ⟨-, connected, -⟩
      · exact none
      · rw [still] at connected
        contradiction
  }, ?_⟩
  rw [adapter, continued]
  exact verified

/-- The certificate would be presented as leaf in one of the deliveries. -/
def ShownIn (rounds : List (Delivery Cert)) : Prop :=
  ∃ round ∈ rounds, ∃ call ∈ round.handshake.calls, call.depth ≤ 0

/-- Tolerated deliveries that all ask for more keep the handshake under way, by induction on the
deliveries. It ends verified when the digest matches and the leaf was shown.
-/
theorem System.Negotiating.rounds {digestAlg : String} {digestVal : List UInt8} {cert : Cert}
    {sys : System Cert} (h : sys.Negotiating x509Digest digestAlg digestVal)
    {rounds : List (Delivery Cert)}
    (leaf
      : ∀ round ∈ rounds, ∀ call ∈ round.handshake.calls, call.depth ≤ 0 → call.cert = cert)
    (tolerates : ∀ round ∈ rounds, sys.adapter.Tolerates x509Digest round.handshake.calls)
    (again
      : ∀ round ∈ rounds,
          round.handshake.getError true = sslErrorWantRead
          ∨ round.handshake.getError true = sslErrorWantWrite)
    : (runFrom (System.step x509Digest) sys (rounds.map Delivery.op)).Negotiating x509Digest
          digestAlg digestVal
      ∧ ((runFrom (System.step x509Digest) sys
            (rounds.map Delivery.op)).adapter.peerCertificateVerified = true
        ↔ sys.adapter.peerCertificateVerified = true
          ∨ (sys.adapter.DigestMatches x509Digest cert ∧ ShownIn rounds)) := by
  induction rounds generalizing sys with
  | nil => exact ⟨h, by simp [ShownIn]⟩
  | cons round rest ih =>
      obtain ⟨leafHead, leafTail⟩ := List.forall_mem_cons.mp leaf
      obtain ⟨toleratesHead, toleratesTail⟩ := List.forall_mem_cons.mp tolerates
      obtain ⟨againHead, againTail⟩ := List.forall_mem_cons.mp again
      obtain ⟨next, verified⟩ := h.again toleratesHead againHead
      have sameDigest (other : Cert)
          : (sys.step x509Digest round.op).adapter.DigestMatches x509Digest other
            ↔ sys.adapter.DigestMatches x509Digest other := by
        unfold DigestMatches
        rw [next.algorithm, next.value, h.algorithm, h.value]
      have sameTolerates
          : ∀ later ∈ rest,
              (sys.step x509Digest round.op).adapter.Tolerates x509Digest
                later.handshake.calls := by
        intro later member call present leafCall
        rw [next.algorithm, sameDigest, ← h.algorithm]
        exact toleratesTail later member call present leafCall
      have presented
          : sys.adapter.Presented x509Digest round.handshake.calls
            ↔ sys.adapter.DigestMatches x509Digest cert
              ∧ ∃ call ∈ round.handshake.calls, call.depth ≤ 0 := by
        constructor
        · intro ⟨call, member, leafCall, matched⟩
          rw [leafHead call member leafCall] at matched
          exact ⟨matched, call, member, leafCall⟩
        · intro ⟨matched, call, member, leafCall⟩
          rw [← leafHead call member leafCall] at matched
          exact ⟨call, member, leafCall, matched⟩
      obtain ⟨final, finalVerified⟩ := ih next leafTail sameTolerates againTail
      refine ⟨final, ?_⟩
      rw [List.map_cons, runFrom_cons, finalVerified, verified, presented, sameDigest]
      simp only [ShownIn, List.exists_mem_cons_iff, and_or_left, or_assoc]

/-- A tolerated delivery with which OpenSSL completes ends connected, and opens the stream
exactly when the peer is verified.
-/
theorem System.Negotiating.completes {digestAlg : String} {digestVal : List UInt8}
    {sys : System Cert} (h : sys.Negotiating x509Digest digestAlg digestVal)
    {delivery : Delivery Cert}
    (tolerates : sys.adapter.Tolerates x509Digest delivery.handshake.calls)
    (completes : delivery.handshake.getError true = sslErrorNone)
    : (sys.step x509Digest delivery.op).destroyed = false
      ∧ (sys.step x509Digest delivery.op).adapter.Consistent x509Digest true
      ∧ (sys.step x509Digest delivery.op).adapter.state = .connected
      ∧ (sys.step x509Digest delivery.op).adapter.peerCertificateDigestAlgorithm = digestAlg
      ∧ ((sys.step x509Digest delivery.op).adapter.peerCertificateVerified = true
        ↔ sys.adapter.peerCertificateVerified = true
          ∨ sys.adapter.Presented x509Digest delivery.handshake.calls)
      ∧ (sys.step x509Digest delivery.op).trace.countP Entry.signalsOpen
        = if (sys.step x509Digest delivery.op).adapter.peerCertificateVerified then 1 else 0 := by
  obtain ⟨answer, verified⟩ := h.tolerated tolerates
  rw [← answer] at completes
  have connected := (continueSSL_connected_iff h.connecting delivery.handshake).mpr completes
  have continued
      : (sys.adapter.continueSSL x509Digest delivery.handshake).adapter
        = {
            (sys.adapter.stopTimer.runVerifyCallbacks x509Digest
              delivery.handshake.calls).adapter with
            state := .connected
          } := by
    unfold sslError at completes
    unfold continueSSL
    dsimp only
    rw [if_pos completes]
  obtain ⟨cert, flag, framed⟩ := @runVerifyCallbacks_frame _ x509Digest sys.adapter.stopTimer
    delivery.handshake.calls
  obtain ⟨watcher, stopped⟩ := stopTimer_frame sys.adapter
  have fromHandshake : (sys.adapter.continueSSL x509Digest delivery.handshake).FromHandshake :=
    continueSSL_fromHandshake h.connecting delivery.handshake
  have succeeded : (sys.adapter.continueSSL x509Digest delivery.handshake).value = 0 :=
    (continueSSL_value_eq_zero _ _).mpr (Or.inl completes)
  obtain ⟨alive, adapter, trace⟩ := @System.step_delivery _ x509Digest _ h.alive delivery
  have sound := h.consistent.onEvent delivery.events delivery.err delivery.setup
    delivery.handshake
  rw [onEvent_delivery h.connecting, if_pos succeeded] at adapter trace sound
  dsimp only at adapter trace
  refine ⟨alive, ?_, ?_, ?_, ?_, ?_⟩
  · rw [adapter]
    exact sound.consistent
  · rw [adapter, connected]
  · rw [adapter, continued, framed, stopped]
    exact h.algorithm
  · rw [adapter, continued]
    exact verified
  · rw [trace, List.countP_append, h.quiet, Nat.zero_add, fromHandshake.countP_signalsOpen,
      adapter]
    rcases fromHandshake.state with ⟨still, -⟩ | ⟨-, -, opens⟩
    · rw [connected] at still
      contradiction
    · rw [opens, waitingToVerifyPeerCertificate, sound.consistent.clientAuth rfl, Bool.true_and]
      cases (sys.adapter.continueSSL x509Digest
        delivery.handshake).adapter.peerCertificateVerified <;> rfl

/-- A whole tolerated handshake ends connected, verified when the digest matches, and opened
exactly when verified.
-/
theorem System.Negotiating.deliver {digestAlg : String} {digestVal : List UInt8} {cert : Cert}
    {sys : System Cert} (h : sys.Negotiating x509Digest digestAlg digestVal)
    {rounds : List (Delivery Cert)} {last : Delivery Cert}
    (completes : CompletesWith cert rounds last)
    (tolerates : digestAlg = "" ∨ sys.adapter.DigestMatches x509Digest cert)
    : (sys.deliver x509Digest rounds last).destroyed = false
      ∧ (sys.deliver x509Digest rounds last).adapter.Consistent x509Digest true
      ∧ (sys.deliver x509Digest rounds last).adapter.state = .connected
      ∧ (sys.deliver x509Digest rounds last).adapter.peerCertificateDigestAlgorithm = digestAlg
      ∧ ((sys.deliver x509Digest rounds last).adapter.peerCertificateVerified = true
        ↔ sys.adapter.peerCertificateVerified = true
          ∨ sys.adapter.DigestMatches x509Digest cert)
      ∧ (sys.deliver x509Digest rounds last).trace.countP Entry.signalsOpen
        = if (sys.deliver x509Digest rounds last).adapter.peerCertificateVerified
          then 1 else 0 := by
  obtain ⟨leafRounds, leafLast⟩ := List.forall_mem_append.mp completes.leaf
  have leafLast := leafLast last (List.mem_singleton_self last)
  have split
      : sys.deliver x509Digest rounds last
        = (runFrom (System.step x509Digest) sys (rounds.map Delivery.op)).step x509Digest
            last.op := by
    simp [System.deliver, runFrom, List.foldl_append]
  have toleratesRound {state : System Cert}
      (under : state.Negotiating x509Digest digestAlg digestVal) {round : Delivery Cert}
      (leaf : ∀ call ∈ round.handshake.calls, call.depth ≤ 0 → call.cert = cert)
      : state.adapter.Tolerates x509Digest round.handshake.calls := by
    intro call member leafCall
    rw [under.algorithm, leaf call member leafCall, DigestMatches, under.algorithm, under.value,
      ← h.algorithm, ← h.value]
    rw [← h.algorithm] at tolerates
    exact tolerates
  obtain ⟨under, verified⟩ := h.rounds leafRounds
    (fun round member => toleratesRound h (leafRounds round member)) completes.again
  obtain ⟨alive, consistent, connected, algorithm, ended, opens⟩ :=
    under.completes (toleratesRound under leafLast) completes.completes
  rw [← split] at alive consistent connected algorithm ended opens
  refine ⟨alive, consistent, connected, algorithm, ?_, opens⟩
  have sameDigest
      : (runFrom (System.step x509Digest) sys
          (rounds.map Delivery.op)).adapter.DigestMatches x509Digest cert
        ↔ sys.adapter.DigestMatches x509Digest cert := by
    unfold DigestMatches
    rw [under.algorithm, under.value, h.algorithm, h.value]
  rw [ended, verified, or_assoc]
  refine or_congr Iff.rfl ?_
  constructor
  · intro either
    rcases either with ⟨matched, -⟩ | ⟨call, member, leafCall, matched⟩
    · exact matched
    · rw [leafLast call member leafCall, sameDigest] at matched
      exact matched
  · intro matched
    obtain ⟨round, member, call, present, leafCall⟩ := completes.presented
    rcases List.mem_append.mp member with earlier | isLast
    · exact Or.inl ⟨matched, round, earlier, call, present, leafCall⟩
    · obtain rfl := List.mem_singleton.mp isLast
      refine Or.inr ⟨call, present, leafCall, ?_⟩
      rw [leafLast call present leafCall, sameDigest]
      exact matched

/-- Deliveries to an adapter in the error state do nothing, by induction on the deliveries. -/
theorem System.runFrom_failed {sys : System Cert} (alive : sys.destroyed = false)
    (failed : sys.adapter.state = .error) (rounds : List (Delivery Cert))
    : (runFrom (System.step x509Digest) sys (rounds.map Delivery.op)).adapter = sys.adapter
      ∧ (runFrom (System.step x509Digest) sys (rounds.map Delivery.op)).trace = sys.trace := by
  induction rounds generalizing sys with
  | nil => exact ⟨rfl, rfl⟩
  | cons round rest ih =>
      have idle
          : sys.adapter.onEvent x509Digest round.events round.err round.setup round.handshake
            = ⟨sys.adapter, [], ()⟩ := by
        have opening
            : sys.adapter.onOpen x509Digest round.events round.setup
              = ⟨sys.adapter, [], {}, false⟩ := by
          simp [onOpen, round.noOpen]
        simp [onEvent, opening, onReadWrite, round.data, failed, round.noClose,
          StreamEvents.any]
      obtain ⟨stillAlive, adapter, trace⟩ := @System.step_delivery _ x509Digest _ alive round
      rw [idle] at adapter trace
      obtain ⟨laterAdapter, laterTrace⟩ := ih stillAlive (by rw [adapter]; exact failed)
      rw [List.map_cons, runFrom_cons, laterAdapter, laterTrace, adapter, trace, List.append_nil]
      exact ⟨rfl, rfl⟩

/-- A delivery that shows a leaf without the configured digest ends in the error state. -/
theorem System.Negotiating.rejects {digestAlg : String} {digestVal : List UInt8} {cert : Cert}
    {sys : System Cert} (h : sys.Negotiating x509Digest digestAlg digestVal)
    (configured : digestAlg ≠ "") (unverified : sys.adapter.peerCertificateVerified = false)
    (mismatch : ¬ sys.adapter.DigestMatches x509Digest cert) {delivery : Delivery Cert}
    (leaf : ∀ call ∈ delivery.handshake.calls, call.depth ≤ 0 → call.cert = cert)
    (shown : ∃ call ∈ delivery.handshake.calls, call.depth ≤ 0)
    (fatal
      : delivery.handshake.getError false ≠ sslErrorNone
        ∧ delivery.handshake.getError false ≠ sslErrorWantRead
        ∧ delivery.handshake.getError false ≠ sslErrorWantWrite)
    : (sys.step x509Digest delivery.op).destroyed = false
      ∧ (sys.step x509Digest delivery.op).adapter.state = .error
      ∧ (sys.step x509Digest delivery.op).trace.countP Entry.signalsOpen = 0 := by
  obtain ⟨watcher, stopped⟩ := stopTimer_frame sys.adapter
  have rejected
      : (sys.adapter.stopTimer.runVerifyCallbacks x509Digest delivery.handshake.calls).value
        = false := by
    refine h.consistent.stopTimer.runVerifyCallbacks_rejected ?_ ?_ shown ?_
    · rw [stopped]
      exact fun unknown => configured (h.algorithm.symm.trans unknown)
    · rw [stopped]
      exact unverified
    · intro call member leafCall
      rw [stopped, leaf call member leafCall]
      exact mismatch
  have failed : (sys.adapter.continueSSL x509Digest delivery.handshake).value ≠ 0 := by
    rw [ne_eq, continueSSL_value_eq_zero, sslError, rejected]
    intro either
    rcases either with none | read | write
    · exact fatal.1 none
    · exact fatal.2.1 read
    · exact fatal.2.2 write
  have fromHandshake : (sys.adapter.continueSSL x509Digest delivery.handshake).FromHandshake :=
    continueSSL_fromHandshake h.connecting delivery.handshake
  obtain ⟨alive, adapter, trace⟩ := @System.step_delivery _ x509Digest _ h.alive delivery
  rw [onEvent_delivery h.connecting, if_neg failed] at adapter trace
  refine ⟨alive, by rw [adapter]; exact errorInfo_state _ _ true, ?_⟩
  rw [trace, List.countP_append, h.quiet, Nat.zero_add, List.countP_append,
    fromHandshake.countP_signalsOpen]
  rcases fromHandshake.state with ⟨-, none⟩ | ⟨succeeded, -⟩
  · rw [none]
    rfl
  · exact absurd succeeded failed

/-- A handshake with another certificate than the configured one fails, by induction on its
deliveries up to the first that shows the certificate.
-/
theorem System.Negotiating.deliver_mismatch {digestAlg : String} {digestVal : List UInt8}
    {cert : Cert} {sys : System Cert} (h : sys.Negotiating x509Digest digestAlg digestVal)
    (configured : digestAlg ≠ "") (unverified : sys.adapter.peerCertificateVerified = false)
    (mismatch : ¬ sys.adapter.DigestMatches x509Digest cert) {rounds : List (Delivery Cert)}
    {last : Delivery Cert} (completes : CompletesWith cert rounds last)
    : (sys.deliver x509Digest rounds last).adapter.state = .error
      ∧ (sys.deliver x509Digest rounds last).trace.countP Entry.signalsOpen = 0 := by
  induction rounds generalizing sys with
  | nil =>
      have shown : ∃ call ∈ last.handshake.calls, call.depth ≤ 0 := by
        simpa using completes.presented
      have ended := h.rejects configured unverified mismatch (completes.leaf last (by simp))
        shown (completes.rejects last (by simp))
      exact ended.2
  | cons round rest ih =>
      obtain ⟨leafHead, leafTail⟩ := List.forall_mem_cons.mp completes.leaf
      obtain ⟨rejectsHead, rejectsTail⟩ := List.forall_mem_cons.mp completes.rejects
      obtain ⟨againHead, againTail⟩ := List.forall_mem_cons.mp completes.again
      by_cases shown : ∃ call ∈ round.handshake.calls, call.depth ≤ 0
      · obtain ⟨alive, failed, quiet⟩ :=
          h.rejects configured unverified mismatch leafHead shown rejectsHead
        obtain ⟨adapter, trace⟩ := @System.runFrom_failed _ x509Digest _ alive failed
          (rest ++ [last])
        change (runFrom (System.step x509Digest) (sys.step x509Digest round.op)
            ((rest ++ [last]).map Delivery.op)).adapter.state = .error
          ∧ (runFrom (System.step x509Digest) (sys.step x509Digest round.op)
            ((rest ++ [last]).map Delivery.op)).trace.countP Entry.signalsOpen = 0
        rw [adapter, trace]
        exact ⟨failed, quiet⟩
      · have tolerates : sys.adapter.Tolerates x509Digest round.handshake.calls :=
          fun call member leafCall => absurd ⟨call, member, leafCall⟩ shown
        obtain ⟨next, verified⟩ := h.again tolerates againHead
        have stillUnverified
            : (sys.step x509Digest round.op).adapter.peerCertificateVerified = false := by
          rw [← Bool.not_eq_true, verified, not_or, unverified]
          refine ⟨Bool.false_ne_true, ?_⟩
          intro ⟨call, member, leafCall, _⟩
          exact shown ⟨call, member, leafCall⟩
        have stillMismatch
            : ¬ (sys.step x509Digest round.op).adapter.DigestMatches x509Digest cert := by
          rw [DigestMatches, next.algorithm, next.value, ← h.algorithm, ← h.value]
          exact mismatch
        refine ih next stillUnverified stillMismatch {
          leaf := leafTail
          presented := ?_
          again := againTail
          completes := completes.completes
          rejects := rejectsTail
        }
        obtain ⟨other, member, presented⟩ := completes.presented
        rcases List.mem_cons.mp member with rfl | later
        · exact absurd presented shown
        · exact ⟨other, later, presented⟩

/-- Without a certificate on record a well-formed digest is taken over, and that is all. -/
theorem setPeerCertificateDigest_absent {a : OpenSSLStreamAdapter Cert}
    (absent : a.peerCertificate = none) {digestAlg : String} {digestVal : List UInt8}
    (wellFormed : getDigestSize digestAlg = some digestVal.length)
    : a.setPeerCertificateDigest x509Digest digestAlg digestVal
      = ⟨a.withDigest digestAlg digestVal, [], true, .none⟩ := by
  rcases @setPeerCertificateDigest_cases _ x509Digest a digestAlg digestVal
    with ⟨malformed, -⟩ | ⟨-, -, set⟩ | ⟨-, other, recorded, -⟩ | ⟨-, other, recorded, -⟩
  · exact absurd wellFormed malformed
  · exact set
  · simp [absent] at recorded
  · simp [absent] at recorded

/-- A reachable connecting adapter without a digest starts the handshake with nothing decided. -/
theorem OpenSSLStreamAdapter.Consistent.negotiating {a : OpenSSLStreamAdapter Cert}
    (h : a.Consistent x509Digest false) (connecting : a.state = .connecting)
    (clientAuth : a.clientAuthEnabled = true)
    (unconfigured : a.peerCertificateDigestAlgorithm = "")
    : (System.around a).Negotiating x509Digest "" a.peerCertificateDigestValue where
  alive := rfl
  consistent := { h with clientAuth := fun _ => clientAuth }
  connecting := connecting
  algorithm := unconfigured
  value := rfl
  quiet := rfl

/-- Configured before the handshake, the digest decides its outcome: the certificate with that
digest is accepted, any other one fails the handshake.
-/
theorem digestFirst_decides {a : OpenSSLStreamAdapter Cert}
    (h : a.Consistent x509Digest false) (connecting : a.state = .connecting)
    (clientAuth : a.clientAuthEnabled = true)
    (unconfigured : a.peerCertificateDigestAlgorithm = "") {cert : Cert} {digestAlg : String}
    {digestVal : List UInt8} {rounds : List (Delivery Cert)} {last : Delivery Cert}
    (wellFormed : getDigestSize digestAlg = some digestVal.length)
    (completes : CompletesWith cert rounds last)
    : if computeDigest x509Digest cert digestAlg evpMaxMdSize = some digestVal then
        (((System.around a).step x509Digest
          (.setPeerCertificateDigest digestAlg digestVal)).deliver x509Digest rounds last).Accepted
      else
        (((System.around a).step x509Digest
            (.setPeerCertificateDigest digestAlg digestVal)).deliver x509Digest rounds
              last).adapter.state = .error
        ∧ (((System.around a).step x509Digest
            (.setPeerCertificateDigest digestAlg digestVal)).deliver x509Digest rounds
              last).trace.countP Entry.signalsOpen = 0 := by
  have start := h.negotiating connecting clientAuth unconfigured
  obtain ⟨absent, unverified⟩ := h.unconfigured unconfigured
  have sound := start.consistent.setPeerCertificateDigest digestAlg digestVal
  have set := @setPeerCertificateDigest_absent _ x509Digest _ absent _ _ wellFormed
  have stepped
      : (System.around a).step x509Digest (.setPeerCertificateDigest digestAlg digestVal)
        = System.around (a.withDigest digestAlg digestVal) := by
    simp [System.step, System.around, OpenSSLStreamAdapter.perform, set]
  have configured
      : (System.around (a.withDigest digestAlg digestVal)).Negotiating x509Digest digestAlg
          digestVal := {
    alive := rfl
    consistent := by
      change (a.setPeerCertificateDigest x509Digest digestAlg digestVal).Sound x509Digest true
        at sound
      rw [set] at sound
      exact sound.consistent
    connecting
    algorithm := rfl
    value := rfl
    quiet := rfl
  }
  rw [stepped]
  split_ifs with same
  · obtain ⟨-, -, connected, -, verified, opens⟩ := configured.deliver completes (Or.inr same)
    have accepted := verified.mpr (Or.inr same)
    rw [accepted] at opens
    exact ⟨connected, accepted, opens⟩
  · exact configured.deliver_mismatch (getDigestSize_ne_empty wellFormed) unverified same completes

/-- For no reachable connecting adapter without a digest, no leaf certificate and no well-formed
digest do the two orders agree: after the handshake the certificate is not on record, so the
digest is taken over without verifying or rejecting anything.
-/
theorem not_orderIndependent (x509Digest : Cert → EvpMd → List UInt8)
    (streamState : StreamState) (history : List (Op Cert)) (cert : Cert) (digestAlg : String)
    (digestVal : List UInt8) (rounds : List (Delivery Cert)) (last : Delivery Cert)
    (connecting : (System.run x509Digest streamState history).adapter.state = .connecting)
    (clientAuth
      : (System.run x509Digest streamState history).adapter.clientAuthEnabled = true)
    (unconfigured
      : (System.run x509Digest streamState history).adapter.peerCertificateDigestAlgorithm = "")
    (wellFormed : getDigestSize digestAlg = some digestVal.length)
    (completes : CompletesWith cert rounds last)
    : ¬ OrderIndependent x509Digest (System.run x509Digest streamState history).adapter cert
          digestAlg digestVal rounds last := by
  have reached := (@System.run_sound _ x509Digest streamState history).consistent
  generalize (System.run x509Digest streamState history).adapter = a at *
  have start := reached.negotiating connecting clientAuth unconfigured
  obtain ⟨alive, consistent, connected, algorithm, verified, opens⟩ :=
    start.deliver completes (Or.inl rfl)
  obtain ⟨absent, unverified⟩ := consistent.unconfigured algorithm
  intro agree
  unfold OrderIndependent at agree
  dsimp only at agree
  generalize (System.around a).deliver x509Digest rounds last = completed at *
  have set := @setPeerCertificateDigest_absent _ x509Digest _ absent _ _ wellFormed
  split_ifs at agree with same
  · have accepted := agree.2.2.1
    rw [System.step_adapter, alive] at accepted
    simp [OpenSSLStreamAdapter.perform, set, withDigest, unverified] at accepted
  · have answer := agree.2.1
    simp [set] at answer

/-- A client whose first handshake step waits for the peer. -/
def startsWaiting : List (Op Bool) :=
  [.startSSL { handshake := { calls := [], getError := fun _ => 2 } }]

/-- The peer's answer: its certificate, and the end of the handshake unless it is rejected. -/
def presentsCertificate : Delivery Bool where
  events := { seRead := true }
  err := 0
  setup := { handshake := { calls := [], getError := fun _ => 0 } }
  handshake := { calls := [⟨true, 0⟩], getError := fun accepted => if accepted then 0 else 1 }
  data := rfl
  noOpen := rfl
  noClose := rfl

/-- That answer completes the handshake with the certificate. -/
theorem presentsCertificate_completes : CompletesWith true [] presentsCertificate where
  leaf := by simp [presentsCertificate]
  presented := by simp [presentsCertificate]
  again := by simp
  completes := rfl
  rejects := by simp [presentsCertificate, sslErrorNone, sslErrorWantRead, sslErrorWantWrite]

/-- The client that waits for the peer, gets its answer and is then told the right digest. -/
theorem presentsCertificate_order_matters
    : ¬ OrderIndependent twoCertificates
          (System.run twoCertificates .opened startsWaiting).adapter true "md5"
          (twoCertificates true .md5) [] presentsCertificate :=
  not_orderIndependent twoCertificates .opened startsWaiting true "md5"
    (twoCertificates true .md5) [] presentsCertificate (by decide) (by decide) (by decide)
    (by decide) presentsCertificate_completes

/-- For that client the right digest comes too late: it is taken over, and the adapter stays
connected and unverified without having signalled `SE_OPEN`.
-/
theorem presentsCertificate_late_digest_unverified
    : ¬ ((System.around
              (System.run twoCertificates .opened startsWaiting).adapter).deliver
            twoCertificates [] presentsCertificate
          |>.step twoCertificates
            (.setPeerCertificateDigest "md5" (twoCertificates true .md5))).Accepted
      ∧ computeDigest twoCertificates true "md5" evpMaxMdSize
        = some (twoCertificates true .md5)
      ∧ ¬ OrderIndependent twoCertificates
            (System.run twoCertificates .opened startsWaiting).adapter true "md5"
            (twoCertificates true .md5) [] presentsCertificate := by
  have late
      : ¬ ((System.around
                (System.run twoCertificates .opened startsWaiting).adapter).deliver
              twoCertificates [] presentsCertificate
            |>.step twoCertificates
              (.setPeerCertificateDigest "md5" (twoCertificates true .md5))).Accepted := by
    intro ⟨_, verified, _⟩
    revert verified
    decide
  refine ⟨late, by decide, ?_⟩
  intro agree
  unfold OrderIndependent at agree
  rw [if_pos (by decide)] at agree
  exact late agree.2

end RtcBase.SslStream
