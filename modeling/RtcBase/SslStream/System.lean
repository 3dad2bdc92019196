import RtcBase.Library.Runs
import RtcBase.SslStream.Adapter

/-! Whole runs of the adapter: its users, the wrapped stream, the event loop and OpenSSL act
in any order, and everything the adapter does is kept in one trace.
-/

namespace RtcBase.SslStream

open RtcBase.Library

variable {Cert : Type}

/-- One action on the adapter, with the answers of its environment. A stream event carries the
state the stream reports from then on.
-/
inductive Op (Cert : Type) where
  | startSSL (setup : SSLSetup Cert)
  | setPeerCertificateDigest (digestAlg : String) (digestVal : List UInt8)
  | onEvent (events : StreamEvents) (err : Int) (streamState : StreamState)
    (setup : SSLSetup Cert) (handshake : Handshake Cert)
  | dtlsHandshakeTimeout (handshake : Handshake Cert)
  | setClientAuthEnabled (enabled : Bool)
  | setIdentity (identity : Bool)
  | setDtlsSrtpCryptoSuites (ciphers : List Int)
  | destroy

/-- The adapter and its wrapped stream. `streamOpened` and `streamClosed` remember whether the
stream has been open and whether it has raised `SE_CLOSE`.
-/
structure System (Cert : Type) where
  adapter : OpenSSLStreamAdapter Cert := {}
  trace : List (Entry Cert) := []
  streamState : StreamState := .closed
  streamOpened : Bool := false
  streamClosed : Bool := false
  destroyed : Bool := false

/-- A fresh adapter around a stream in the given state. -/
def System.initial (Cert : Type) (streamState : StreamState) : System Cert :=
  { streamState, streamOpened := streamState == .opened }

/-- What one action does to the adapter. The timeout callback runs only while the event loop
has the timer armed.
-/
def OpenSSLStreamAdapter.perform (x509Digest : Cert → EvpMd → List UInt8)
    (a : OpenSSLStreamAdapter Cert) (streamState : StreamState)
    : Op Cert → Outcome Cert Unit
  | .startSSL setup =>
      let started := a.startSSL x509Digest streamState setup
      ⟨started.adapter, started.trace, ()⟩
  | .setPeerCertificateDigest digestAlg digestVal =>
      let set := a.setPeerCertificateDigest x509Digest digestAlg digestVal
      ⟨set.adapter, set.trace, ()⟩
  | .onEvent events err _ setup handshake => a.onEvent x509Digest events err setup handshake
  | .dtlsHandshakeTimeout handshake =>
      if a.handshakeTimerWatcher = .armed then
        a.dtlsHandshakeTimeoutCallback x509Digest handshake
      else ⟨a, [], ()⟩
  | .setClientAuthEnabled enabled => ⟨{ a with clientAuthEnabled := enabled }, [], ()⟩
  | .setIdentity identity => ⟨{ a with identity := identity }, [], ()⟩
  | .setDtlsSrtpCryptoSuites ciphers => ⟨(a.setDtlsSrtpCryptoSuites ciphers).1, [], ()⟩
  | .destroy => ⟨a.cleanup, [], ()⟩

/-- One step of a run. A destroyed adapter takes no further step. -/
def System.step (x509Digest : Cert → EvpMd → List UInt8) (sys : System Cert) (op : Op Cert)
    : System Cert :=
  if sys.destroyed then sys
  else
    let outcome := sys.adapter.perform x509Digest sys.streamState op
    let sys := { sys with adapter := outcome.adapter, trace := sys.trace ++ outcome.trace }
    match op with
    | .onEvent events _ streamState _ _ =>
        {
          sys with
          streamState
          streamOpened := sys.streamOpened || events.seOpen || streamState == .opened
          streamClosed := sys.streamClosed || events.seClose
        }
    | .destroy => { sys with destroyed := true }
    | _ => sys

/-- The system after a sequence of actions on a fresh adapter. -/
def System.run (x509Digest : Cert → EvpMd → List UInt8) (streamState : StreamState)
    (ops : List (Op Cert))
    : System Cert :=
  runFrom (System.step x509Digest) (System.initial Cert streamState) ops

/-- What the adapter does in one step of a run. -/
def System.stepTrace (x509Digest : Cert → EvpMd → List UInt8) (sys : System Cert)
    (op : Op Cert)
    : List (Entry Cert) :=
  if sys.destroyed then [] else (sys.adapter.perform x509Digest sys.streamState op).trace

/-- A step extends the trace by what the adapter does in it. -/
theorem System.step_trace (x509Digest : Cert → EvpMd → List UInt8) (sys : System Cert)
    (op : Op Cert)
    : (sys.step x509Digest op).trace = sys.trace ++ sys.stepTrace x509Digest op := by
  unfold System.step System.stepTrace
  split
  · simp
  · cases op <;> rfl

/-- Nothing happens to an adapter that has been destroyed. -/
theorem System.step_destroyed (x509Digest : Cert → EvpMd → List UInt8) {sys : System Cert}
    (gone : sys.destroyed = true) (op : Op Cert)
    : sys.step x509Digest op = sys := by
  simp [System.step, gone]

/-- The adapter after a step is what the action makes of it. -/
theorem System.step_adapter (x509Digest : Cert → EvpMd → List UInt8) (sys : System Cert)
    (op : Op Cert)
    : (sys.step x509Digest op).adapter
      = if sys.destroyed then sys.adapter
        else (sys.adapter.perform x509Digest sys.streamState op).adapter := by
  unfold System.step
  split
  · rfl
  · cases op <;> rfl

-----------------------------------------------------------------------------------------
-- Observing a trace
-----------------------------------------------------------------------------------------

/-- The entry signals `SE_OPEN` upward. -/
def Entry.signalsOpen (entry : Entry Cert) : Bool :=
  match entry.output with
  | .signalEvent _ events _ => events.seOpen
  | _ => false

/-- The entry signals `SE_CLOSE` upward. -/
def Entry.signalsClose (entry : Entry Cert) : Bool :=
  match entry.output with
  | .signalEvent _ events _ => events.seClose
  | _ => false

/-- The entry signals `SE_READ` or `SE_WRITE` upward. -/
def Entry.signalsReady (entry : Entry Cert) : Bool :=
  match entry.output with
  | .signalEvent _ events _ => events.seRead || events.seWrite
  | _ => false

/-- The entry is the adapter's own `SE_OPEN`, raised when a handshake completes. -/
def Entry.ownOpen (entry : Entry Cert) : Bool :=
  match entry.output with
  | .signalEvent .continueSSL events _ => events.seOpen
  | _ => false

/-- The entry is a call of `begin_SSL` or `continue_SSL` that failed. -/
def Entry.handshakeFailed (entry : Entry Cert) : Bool :=
  match entry.output with
  | .handshakeStep ret => ret != 0
  | _ => false

/-- The entry is a call of `start_SSL`. -/
def Entry.startCalled (entry : Entry Cert) : Bool :=
  match entry.output with
  | .startSSL => true
  | _ => false

/-- The entry is a successful return of `start_SSL`. -/
def Entry.startSucceeded (entry : Entry Cert) : Bool :=
  match entry.output with
  | .startSSLReturned ret => ret == 0
  | _ => false

/-- Everything after the first call of `start_SSL`. -/
def afterStart (trace : List (Entry Cert)) : List (Entry Cert) :=
  (trace.dropWhile (fun entry => !entry.startCalled)).tail

end RtcBase.SslStream
