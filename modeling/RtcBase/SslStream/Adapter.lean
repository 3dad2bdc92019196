import RtcBase.SslStream.Digest

/-! The stream adapter of `openssl_stream_adapter.cpp` as explicit state passing.
OpenSSL, the wrapped stream and the event loop are the environment: what they answer is an
argument of each operation. Every operation returns the new adapter together with the trace
of what it did, each entry with the adapter as it was at that moment.
-/

namespace RtcBase.SslStream

-----------------------------------------------------------------------------------------
-- Data of the stream interface and of the adapter
-----------------------------------------------------------------------------------------

inductive StreamState where
  | closed
  | opening
  | opened
  deriving DecidableEq, Repr

/-- A combination of `StreamEvent` flags. No other bit of the mask is ever read. -/
structure StreamEvents where
  seOpen : Bool := false
  seRead : Bool := false
  seWrite : Bool := false
  seClose : Bool := false
  deriving DecidableEq, Repr

/-- `events != 0`. -/
def StreamEvents.any (events : StreamEvents) : Bool :=
  events.seOpen || events.seRead || events.seWrite || events.seClose

inductive SSLState where
  | none
  | wait
  | connecting
  | connected
  | error
  | closed
  deriving DecidableEq, Repr

inductive SSLPeerCertificateDigestError where
  | none
  | unknownAlgorithm
  | invalidLength
  | verificationFailed
  deriving DecidableEq, Repr

inductive SSLHandshakeError where
  | unknown
  | incompatibleCiphersuite
  deriving DecidableEq, Repr

/-- The handshake timer: deleted, present but stopped, or running. -/
inductive TimerWatcher where
  | null
  | idle
  | armed
  deriving DecidableEq, Repr

/-- The members of `OpenSSLStreamAdapter` that its operations read or write, with the values
its constructor gives them. `ssl`, `sslCtx` and `identity` say whether the pointer is set.
-/
structure OpenSSLStreamAdapter (Cert : Type) where
  state : SSLState := .none
  sslErrorCode : Int := 0
  sslReadNeedsWrite : Bool := false
  sslWriteNeedsRead : Bool := false
  ssl : Bool := false
  sslCtx : Bool := false
  identity : Bool := false
  peerCertificate : Option Cert := none
  peerCertificateVerified : Bool := false
  peerCertificateDigestValue : List UInt8 := []
  peerCertificateDigestAlgorithm : String := ""
  srtpCiphers : String := ""
  clientAuthEnabled : Bool := true
  handshakeTimerWatcher : TimerWatcher := .idle

-----------------------------------------------------------------------------------------
-- What the environment supplies, and what the adapter does in return
-----------------------------------------------------------------------------------------

/-- One call of `SSL_verify_callback`, with the current certificate and its depth. -/
structure VerifyCall (Cert : Type) where
  cert : Cert
  depth : Int
  deriving DecidableEq

/-- OpenSSL's part of one `SSL_connect` or `SSL_accept`: the verify callbacks it makes, what
`SSL_get_error` then says (`true` when every callback returned 1), the DTLS timeout in
microseconds if there is one, and whether the last error is `SSL_R_NO_SHARED_CIPHER`.
-/
structure Handshake (Cert : Type) where
  calls : List (VerifyCall Cert)
  getError : Bool → Int
  getTimeout : Option Int := none
  noSharedCipher : Bool := false

/-- Which of the allocations and configuration calls of `begin_SSL` succeed, and the first
handshake step after them.
-/
structure SSLSetup (Cert : Type) where
  ctxNew : Bool := true
  configureIdentity : Bool := true
  useSrtp : Bool := true
  bioNew : Bool := true
  sslNew : Bool := true
  ecKeyNew : Bool := true
  handshake : Handshake Cert

def sslErrorNone : Int := 0
def sslErrorWantRead : Int := 2
def sslErrorWantWrite : Int := 3

/-- The function of the adapter that raises an upward event. -/
inductive Origin where
  | continueSSL
  | errorInfo
  | onEvent
  deriving DecidableEq, Repr

/-- What an observer of the adapter sees: events and errors signalled upward, the verify
callback's answers to OpenSSL, the code with which a handshake step came back, and the calls
of `start_SSL` with what they returned.
-/
inductive Output (Cert : Type) where
  | signalEvent (origin : Origin) (events : StreamEvents) (err : Int)
  | signalSslHandshakeError (error : SSLHandshakeError)
  | verifyCallback (call : VerifyCall Cert) (ret : Int)
  | handshakeStep (ret : Int)
  | startSSL
  | startSSLReturned (ret : Int)

/-- An output with the adapter as it was at that moment; for a verify callback, as it was when
the callback was entered.
-/
structure Entry (Cert : Type) where
  output : Output Cert
  adapter : OpenSSLStreamAdapter Cert

/-- The adapter after an operation, what the operation did, and its result. -/
structure Outcome (Cert α : Type) where
  adapter : OpenSSLStreamAdapter Cert
  trace : List (Entry Cert)
  value : α

variable {Cert : Type}

namespace OpenSSLStreamAdapter

-----------------------------------------------------------------------------------------
-- Certificate verification
-----------------------------------------------------------------------------------------

def waitingToVerifyPeerCertificate (a : OpenSSLStreamAdapter Cert) : Bool :=
  a.clientAuthEnabled && !a.peerCertificateVerified

def hasPeerCertificateDigest (a : OpenSSLStreamAdapter Cert) : Bool :=
  !(a.peerCertificateDigestAlgorithm == "") && !a.peerCertificateDigestValue.isEmpty

/-- `verify_peer_certificate`: compare the recorded certificate with the configured digest and
set the verified flag on a match.
-/
def verifyPeerCertificate (x509Digest : Cert → EvpMd → List UInt8)
    (a : OpenSSLStreamAdapter Cert)
    : OpenSSLStreamAdapter Cert × Bool :=
  match a.peerCertificate with
  | none => (a, false)
  | some cert =>
      if !a.hasPeerCertificateDigest then (a, false)
      else
        match computeDigest x509Digest cert a.peerCertificateDigestAlgorithm evpMaxMdSize with
        | none => (a, false)
        | some computedDigest =>
            if computedDigest ≠ a.peerCertificateDigestValue then (a, false)
            else ({ a with peerCertificateVerified := true }, true)

/-- `SSL_verify_callback`. A chained certificate is ignored, a leaf is accepted unseen while no
digest is known, and an already verified adapter accepts without looking at the certificate.
-/
def sslVerifyCallback (x509Digest : Cert → EvpMd → List UInt8)
    (a : OpenSSLStreamAdapter Cert) (call : VerifyCall Cert)
    : OpenSSLStreamAdapter Cert × Int :=
  if call.depth > 0 then (a, 1)
  else if a.peerCertificateDigestAlgorithm = "" then (a, 1)
  else if !a.peerCertificateVerified then
    let recorded := { a with peerCertificate := some call.cert }
    match verifyPeerCertificate x509Digest recorded with
    | (next, false) => (next, 0)
    | (next, true) => (next, 1)
  else (a, 1)

/-- The callbacks of one handshake step in turn; the value says whether all returned 1. -/
def runVerifyCallbacks (x509Digest : Cert → EvpMd → List UInt8)
    : OpenSSLStreamAdapter Cert → List (VerifyCall Cert) → Outcome Cert Bool
  | a, [] => ⟨a, [], true⟩
  | a, call :: rest =>
      let (next, ret) := a.sslVerifyCallback x509Digest call
      let later := runVerifyCallbacks x509Digest next rest
      ⟨later.adapter, ⟨.verifyCallback call ret, a⟩ :: later.trace, ret == 1 && later.value⟩

-----------------------------------------------------------------------------------------
-- Handshake steps
-----------------------------------------------------------------------------------------

/-- `EventLoop::stop_timer` on the handshake timer. -/
def stopTimer (a : OpenSSLStreamAdapter Cert) : OpenSSLStreamAdapter Cert :=
  match a.handshakeTimerWatcher with
  | .null => a
  | _ => { a with handshakeTimerWatcher := .idle }

/-- `EventLoop::start_timer` on the handshake timer. -/
def startTimer (a : OpenSSLStreamAdapter Cert) : OpenSSLStreamAdapter Cert :=
  match a.handshakeTimerWatcher with
  | .null => a
  | _ => { a with handshakeTimerWatcher := .armed }

/-- `cleanup`. The verified flag and the configured digest are left as they are. -/
def cleanup (a : OpenSSLStreamAdapter Cert) : OpenSSLStreamAdapter Cert :=
  let a :=
    if a.state ≠ .error then { a with state := .closed, sslErrorCode := 0 } else a
  {
    a with
    ssl := false
    sslCtx := false
    identity := false
    peerCertificate := none
    handshakeTimerWatcher := .null
  }

/-- `error_info`. -/
def errorInfo (a : OpenSSLStreamAdapter Cert) (err : Int) (signal : Bool)
    : Outcome Cert Unit :=
  let a := cleanup { a with state := .error, sslErrorCode := err }
  ⟨a, if signal then [⟨.signalEvent .errorInfo { seClose := true } err, a⟩] else [], ()⟩

/-- `continue_SSL`: one step of the negotiation. -/
def continueSSL (x509Digest : Cert → EvpMd → List UInt8) (a : OpenSSLStreamAdapter Cert)
    (handshake : Handshake Cert)
    : Outcome Cert Int :=
  let verified := runVerifyCallbacks x509Digest a.stopTimer handshake.calls
  let a := verified.adapter
  let sslError := handshake.getError verified.value
  if sslError = sslErrorNone then
    let a := { a with state := .connected }
    let signalled :=
      if a.waitingToVerifyPeerCertificate then []
      else
        [⟨.signalEvent .continueSSL { seOpen := true, seRead := true, seWrite := true } 0, a⟩]
    ⟨a, verified.trace ++ signalled ++ [⟨.handshakeStep 0, a⟩], 0⟩
  else if sslError = sslErrorWantRead then
    let a :=
      match handshake.getTimeout with
      | none => a
      | some delay => if delay > 0 then a.startTimer else a
    ⟨a, verified.trace ++ [⟨.handshakeStep 0, a⟩], 0⟩
  else if sslError = sslErrorWantWrite then
    ⟨a, verified.trace ++ [⟨.handshakeStep 0, a⟩], 0⟩
  else
    let error :=
      if handshake.noSharedCipher then SSLHandshakeError.incompatibleCiphersuite
      else SSLHandshakeError.unknown
    let ret := if sslError ≠ 0 then sslError else -1
    ⟨a, verified.trace ++ [⟨.signalSslHandshakeError error, a⟩, ⟨.handshakeStep ret, a⟩], ret⟩

/-- `setup_SSL_context`: whether a context comes back. -/
def setupSSLContext (a : OpenSSLStreamAdapter Cert) (setup : SSLSetup Cert) : Bool :=
  if !setup.ctxNew then false
  else if a.identity && !setup.configureIdentity then false
  else if !(a.srtpCiphers == "") && !setup.useSrtp then false
  else true

/-- `begin_SSL`: build the OpenSSL objects, then take the first handshake step. -/
def beginSSL (x509Digest : Cert → EvpMd → List UInt8) (a : OpenSSLStreamAdapter Cert)
    (setup : SSLSetup Cert)
    : Outcome Cert Int :=
  let fail (a : OpenSSLStreamAdapter Cert) : Outcome Cert Int :=
    ⟨a, [⟨.handshakeStep (-1), a⟩], -1⟩
  if a.state ≠ .connecting then fail a
  else
    let a := { a with sslCtx := a.setupSSLContext setup }
    if !a.sslCtx then fail a
    else if !setup.bioNew then fail a
    else
      let a := { a with ssl := setup.sslNew }
      if !a.ssl then fail a
      else if !setup.ecKeyNew then fail a
      else a.continueSSL x509Digest setup.handshake

-----------------------------------------------------------------------------------------
-- Operations of the adapter's users, the wrapped stream and the event loop
-----------------------------------------------------------------------------------------

/-- `start_SSL`, with the state that the wrapped stream reports. -/
def startSSL (x509Digest : Cert → EvpMd → List UInt8) (a : OpenSSLStreamAdapter Cert)
    (streamState : StreamState) (setup : SSLSetup Cert)
    : Outcome Cert Int :=
  let called : Entry Cert := ⟨.startSSL, a⟩
  if a.state ≠ .none then
    ⟨a, [called, ⟨.startSSLReturned (-1), a⟩], -1⟩
  else if streamState ≠ .opened then
    let a := { a with state := .wait }
    ⟨a, [called, ⟨.startSSLReturned 0, a⟩], 0⟩
  else
    let begun := beginSSL x509Digest { a with state := .connecting } setup
    if begun.value ≠ 0 then
      let failed := begun.adapter.errorInfo begun.value false
      ⟨failed.adapter,
        called :: begun.trace ++ failed.trace
          ++ [⟨.startSSLReturned begun.value, failed.adapter⟩],
        begun.value⟩
    else
      ⟨begun.adapter, called :: begun.trace ++ [⟨.startSSLReturned 0, begun.adapter⟩], 0⟩

/-- `set_peer_certificate_digest`. -/
def setPeerCertificateDigest (x509Digest : Cert → EvpMd → List UInt8)
    (a : OpenSSLStreamAdapter Cert) (digestAlg : String) (digestVal : List UInt8)
    : Outcome Cert (Bool × SSLPeerCertificateDigestError) :=
  match getDigestSize digestAlg with
  | none => ⟨a, [], false, .unknownAlgorithm⟩
  | some expectedLen =>
      if expectedLen ≠ digestVal.length then ⟨a, [], false, .invalidLength⟩
      else
        let a :=
          {
            a with
            peerCertificateDigestValue := digestVal
            peerCertificateDigestAlgorithm := digestAlg
          }
        match a.peerCertificate with
        | none => ⟨a, [], true, .none⟩
        | some _ =>
            match verifyPeerCertificate x509Digest a with
            | (next, false) =>
                let failed := next.errorInfo (-1) false
                ⟨failed.adapter, failed.trace, false, .verificationFailed⟩
            | (next, true) => ⟨next, [], true, .none⟩

/-- The `SE_OPEN` branch of `on_event`: the adapter, the events to forward, and whether the
function returned early because `begin_SSL` failed.
-/
def onOpen (x509Digest : Cert → EvpMd → List UInt8) (a : OpenSSLStreamAdapter Cert)
    (events : StreamEvents) (setup : SSLSetup Cert)
    : Outcome Cert (StreamEvents × Bool) :=
  if !events.seOpen then ⟨a, [], {}, false⟩
  else if a.state ≠ .wait then ⟨a, [], { seOpen := true }, false⟩
  else
    let begun := beginSSL x509Digest { a with state := .connecting } setup
    if begun.value ≠ 0 then
      let failed := begun.adapter.errorInfo begun.value true
      ⟨failed.adapter, begun.trace ++ failed.trace, {}, true⟩
    else ⟨begun.adapter, begun.trace, {}, false⟩

/-- The `SE_READ`/`SE_WRITE` branch of `on_event`, in the same shape. -/
def onReadWrite (x509Digest : Cert → EvpMd → List UInt8) (a : OpenSSLStreamAdapter Cert)
    (events : StreamEvents) (handshake : Handshake Cert)
    : Outcome Cert (StreamEvents × Bool) :=
  if !(events.seRead || events.seWrite) then ⟨a, [], {}, false⟩
  else
    match a.state with
    | .none => ⟨a, [], { seRead := events.seRead, seWrite := events.seWrite }, false⟩
    | .connecting =>
        let continued := a.continueSSL x509Digest handshake
        if continued.value ≠ 0 then
          let failed := continued.adapter.errorInfo continued.value true
          ⟨failed.adapter, continued.trace ++ failed.trace, {}, true⟩
        else ⟨continued.adapter, continued.trace, {}, false⟩
    | .connected =>
        ⟨a, [],
          {
            seWrite := (events.seRead && a.sslWriteNeedsRead) || events.seWrite
            seRead := (events.seWrite && a.sslReadNeedsWrite) || events.seRead
          },
          false⟩
    | _ => ⟨a, [], {}, false⟩

/-- `on_event`: the three branches in turn, then the collected events upward. -/
def onEvent (x509Digest : Cert → EvpMd → List UInt8) (a : OpenSSLStreamAdapter Cert)
    (events : StreamEvents) (err : Int) (setup : SSLSetup Cert) (handshake : Handshake Cert)
    : Outcome Cert Unit :=
  let opening := a.onOpen x509Digest events setup
  if opening.value.2 then ⟨opening.adapter, opening.trace, ()⟩
  else
    let ready := opening.adapter.onReadWrite x509Digest events handshake
    if ready.value.2 then ⟨ready.adapter, opening.trace ++ ready.trace, ()⟩
    else
      let a := if events.seClose then ready.adapter.cleanup else ready.adapter
      let eventsToSignal : StreamEvents :=
        {
          seOpen := opening.value.1.seOpen
          seRead := ready.value.1.seRead
          seWrite := ready.value.1.seWrite
          seClose := events.seClose
        }
      let signalError := if events.seClose then err else 0
      let signalled :=
        if eventsToSignal.any then [⟨.signalEvent .onEvent eventsToSignal signalError, a⟩]
        else []
      ⟨a, opening.trace ++ ready.trace ++ signalled, ()⟩

/-- `dtls_handshake_timeout_callback`. Whatever `continue_SSL` returns is dropped. The timer is
not repeating, so it is stopped once it has fired.
-/
def dtlsHandshakeTimeoutCallback (x509Digest : Cert → EvpMd → List UInt8)
    (a : OpenSSLStreamAdapter Cert) (handshake : Handshake Cert)
    : Outcome Cert Unit :=
  let continued := a.stopTimer.continueSSL x509Digest handshake
  ⟨continued.adapter, continued.trace, ()⟩

/-- The entries of `srtp_cipher_map`, by id. -/
def srtpCipherMap : List (Int × String) :=
  [(0x0001, "SRTP_AES128_CM_SHA1_80"), (0x0002, "SRTP_AES128_CM_SHA1_32"),
    (0x0007, "SRTP_AEAD_AES_128_GCM"), (0x0008, "SRTP_AEAD_AES_256_GCM")]

/-- The loop of `set_dtls_srtp_crypto_suites` over the requested ciphers. -/
def internalCiphers : String → List Int → Option String
  | internal, [] => some internal
  | internal, cipher :: rest =>
      match srtpCipherMap.lookup cipher with
      | none => none
      | some name =>
          internalCiphers (if internal = "" then name else internal ++ ":" ++ name) rest

/-- `set_dtls_srtp_crypto_suites`. -/
def setDtlsSrtpCryptoSuites (a : OpenSSLStreamAdapter Cert) (ciphers : List Int)
    : OpenSSLStreamAdapter Cert × Bool :=
  if a.state ≠ .none then (a, false)
  else
    match internalCiphers "" ciphers with
    | none => (a, false)
    | some internal =>
        if internal = "" then (a, false) else ({ a with srtpCiphers := internal }, true)

end OpenSSLStreamAdapter

end RtcBase.SslStream
