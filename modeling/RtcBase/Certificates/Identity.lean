import RtcBase.Library.RefCounts
import RtcBase.TimeUtils.Asn1Time

/-! Keys, certificates and identities over the reference counts of the OpenSSL objects. What each
OpenSSL call answers is given from outside; `none` is behaviour that is undefined, such as the use of
an object that was freed. A failure is logged by a loop that never ends when there is no error to
log, so a call that fails may not return.
-/

namespace RtcBase.Certificates

open Library
open TimeUtils

-----------------------------------------------------------------------------------------
-- OpenSSL objects
-----------------------------------------------------------------------------------------

/-- The type of an `ASN1_TIME`. -/
inductive Asn1Type where
  | utcTime
  | generalizedTime
  | other
  deriving DecidableEq, Repr

/-- An `ASN1_TIME`: its type, its characters and their number. -/
structure Asn1Time where
  type : Asn1Type
  data : Nat → Byte
  length : BitVec 64

/-- What the code sets in an `X509`. -/
structure X509 where
  commonName : List Char
  notBefore : Asn1Time
  notAfter : Asn1Time

/-- What an OpenSSL object is. A key pair contains the key that was assigned to it. -/
inductive Object where
  | pkey
  | bignum
  | key
  | name
  | bio
  -- `none` before the fields are set
  | x509 (fields : Option X509)

/-- The objects of OpenSSL that are alive. -/
abbrev Objects := CountedHeap Object

-----------------------------------------------------------------------------------------
-- Failures
-----------------------------------------------------------------------------------------

/-- An error in the queue of OpenSSL; its code is not 0. -/
structure ErrorCode where
  code : BitVec 64
  nonzero : code ≠ 0
  deriving DecidableEq, Repr

/-- `ERR_get_error`: the code of the first error, which is removed, or 0. -/
def errGetError : List ErrorCode → BitVec 64 × List ErrorCode
  | [] => (0, [])
  | error :: rest => (error.code, rest)

/-- The loop of `log_ssl_errors` for a number of rounds; `none` is that it has not ended. The source
compares `err`, which stays 0, with the code where it means to assign it.
-/
def logSslErrorsRounds : Nat → List ErrorCode → Option (List ErrorCode)
  | 0, _ => none
  | rounds + 1, queue =>
      let (code, rest) := errGetError queue
      if (0 : BitVec 64) = code then logSslErrorsRounds rounds rest else some rest

/-- `log_ssl_errors`: the queue that it leaves, or `none` if it never returns. -/
def logSslErrors : List ErrorCode → Option (List ErrorCode)
  | [] => none
  | _ :: rest => some rest

/-- The loop never ends on an empty queue, by induction on its rounds. -/
theorem logSslErrorsRounds_nil (rounds : Nat) : logSslErrorsRounds rounds [] = none := by
  induction rounds with
  | zero => rfl
  | succ rounds ih => simpa [logSslErrorsRounds, errGetError] using ih

/-- What `log_ssl_errors` leaves is what its loop leaves after some number of rounds. -/
theorem logSslErrors_eq_some_iff (queue rest : List ErrorCode)
    : logSslErrors queue = some rest ↔ ∃ rounds, logSslErrorsRounds rounds queue = some rest := by
  cases queue with
  | nil => simp [logSslErrors, logSslErrorsRounds_nil]
  | cons error later =>
      have stops (rounds : Nat) : logSslErrorsRounds (rounds + 1) (error :: later) = some later :=
        if_neg error.nonzero.symm
      constructor
      · rintro ⟨⟩
        exact ⟨1, stops 0⟩
      · rintro ⟨rounds, ends⟩
        cases rounds with
        | zero => cases ends
        | succ rounds => exact (stops rounds).symm.trans ends

/-- What comes of a call that makes something. -/
inductive Result (α : Type) where
  | made (value : α)
  | failed
  -- it never returns, and its locals keep references
  | hangs (kept : List Nat)
  deriving DecidableEq, Repr

namespace Result

variable {α β : Type}

/-- A call that fails, with the errors that `log_ssl_errors` finds in the queue and the references
that the caller's locals have meanwhile.
-/
def ofFailure (errors : List ErrorCode) (kept : List Nat) : Result α :=
  match logSslErrors errors with
  | some _ => .failed
  | none => .hangs kept

def map (f : α → β) : Result α → Result β
  | .made value => .made (f value)
  | .failed => .failed
  | .hangs kept => .hangs kept

def value? : Result α → Option α
  | .made value => some value
  | _ => none

end Result

-----------------------------------------------------------------------------------------
-- Key pairs
-----------------------------------------------------------------------------------------

inductive ECCurve where
  | nistP256
  | last
  deriving DecidableEq, Repr

/-- `KeyParams`, with the member of its union that the type is for. -/
inductive KeyParams where
  | rsa (modSize pubExp : Nat)
  | ecdsa (curve : ECCurve)
  | last
  deriving DecidableEq, Repr

def kRsaMinModSize : Nat := 1024

def kRsaMaxModSize : Nat := 8192

/-- `KeyParams::is_valid`. -/
def KeyParams.isValid : KeyParams → Bool
  | .rsa modSize pubExp =>
      kRsaMinModSize ≤ modSize ∧ modSize ≤ kRsaMaxModSize ∧ pubExp > modSize
  | .ecdsa curve => curve = .nistP256
  | .last => false

/-- What the calls of `make_key` answer: whether there is memory for the key pair, the exponent and
the key, and whether the key could be made and assigned; and the errors in the queue after them.
-/
structure KeyAnswers where
  pkeyNew : Bool
  exponentNew : Bool
  keyNew : Bool
  setWord : Bool
  generateKey : Bool
  assignKey : Bool
  errors : List ErrorCode
  deriving DecidableEq, Repr

/-- A new object if there is memory for it. -/
def newObject (objects : Objects) (available : Bool) (object : Object) : Option Nat × Objects :=
  if available then (some objects.next, objects.allocate object) else (none, objects)

/-- `EVP_PKEY_assign`: the key is a part of the key pair from now on, and no object of its own. -/
def assignKey (objects : Objects) (key : Nat) : Option Objects := objects.release key

/-- Calls of the functions that free objects, which do nothing with a null pointer. -/
def freeAll (objects : Objects) (pointers : List (Option Nat)) : Option Objects :=
  objects.releaseAll (pointers.filterMap id)

/-- The branch of `make_key` for RSA keys, with the key pair. -/
def makeRsaKey (answers : KeyAnswers) (objects : Objects) (pkey : Option Nat)
    : Option (Option Nat × Objects) :=
  let (exponent, objects) := newObject objects answers.exponentNew .bignum
  let (rsa, objects) := newObject objects answers.keyNew .key
  match pkey, exponent, rsa with
  | some pkey, some exponent, some rsa =>
      if answers.setWord && answers.generateKey && answers.assignKey then do
        let objects ← assignKey objects rsa
        let objects ← freeAll objects [some exponent]
        return (some pkey, objects)
      else (freeAll objects [some pkey, some exponent, some rsa]).map fun objects => (none, objects)
  | pkey, exponent, rsa =>
      (freeAll objects [pkey, exponent, rsa]).map fun objects => (none, objects)

/-- The branch of `make_key` for elliptic curves. The flag is set before the key is checked, so
there must be memory for the key.
-/
def makeEcKey (answers : KeyAnswers) (objects : Objects) (pkey : Option Nat)
    : Option (Option Nat × Objects) :=
  match newObject objects answers.keyNew .key with
  | (none, _) => none
  | (some ecKey, objects) =>
      if pkey.isSome && answers.generateKey && answers.assignKey then do
        let objects ← assignKey objects ecKey
        return (pkey, objects)
      else (freeAll objects [pkey, some ecKey]).map fun objects => (none, objects)

/-- `make_key`. -/
def makeKey (params : KeyParams) (answers : KeyAnswers) (objects : Objects)
    : Option (Option Nat × Objects) :=
  let (pkey, objects) := newObject objects answers.pkeyNew .pkey
  match params with
  | .rsa _ _ => makeRsaKey answers objects pkey
  | .ecdsa .nistP256 => makeEcKey answers objects pkey
  | .ecdsa .last => (freeAll objects [pkey]).map fun objects => (none, objects)
  | .last => (freeAll objects [pkey]).map fun objects => (none, objects)

/-- `OpenSSLKeyPair::generate`. -/
def generateKeyPair (params : KeyParams) (answers : KeyAnswers) (objects : Objects)
    : Option (Result Nat × Objects) :=
  (makeKey params answers objects).map fun (pkey, objects) =>
    match pkey with
    | none => (.ofFailure answers.errors [], objects)
    | some pkey => (.made pkey, objects)

-----------------------------------------------------------------------------------------
-- Certificates
-----------------------------------------------------------------------------------------

/-- `SSLIdentityParams` but for the key. -/
structure SSLIdentityParams where
  commonName : List Char
  notBefore : Int
  notAfter : Int
  deriving DecidableEq, Repr

/-- What the calls of `make_certificate` and `print_cert` answer, in the order of the calls, and the
errors in the queue after those of `make_certificate`.
-/
structure CertificateAnswers where
  x509New : Bool
  setPubkey : Bool
  serialNew : Bool
  pseudoRand : Bool
  getSerialNumber : Bool
  toAsn1Integer : Bool
  setVersion : Bool
  nameNew : Bool
  addEntry : Bool
  setSubjectName : Bool
  setIssuerName : Bool
  adjustNotBefore : Bool
  adjustNotAfter : Bool
  sign : Bool
  bioNew : Bool
  errors : List ErrorCode
  deriving DecidableEq, Repr

/-- The label `error` of `make_certificate`. -/
def makeCertificateError (objects : Objects) (serialNumber name x509 : Option Nat)
    : Option (Option Nat × Objects) :=
  (freeAll objects [serialNumber, name, x509]).map fun objects => (none, objects)

/-- `make_certificate`; the time functions of OpenSSL turn seconds since 1970 into an `ASN1_TIME`. -/
def makeCertificate (x509TimeAdj : Int → Asn1Time) (params : SSLIdentityParams)
    (answers : CertificateAnswers) (objects : Objects)
    : Option (Option Nat × Objects) :=
  if !answers.x509New then makeCertificateError objects none none none
  else
    let x509 := objects.next
    let objects := objects.allocate (.x509 none)
    if !(answers.setPubkey && answers.serialNew) then
      makeCertificateError objects none none (some x509)
    else
      let serialNumber := objects.next
      let objects := objects.allocate .bignum
      if !(answers.pseudoRand && answers.getSerialNumber && answers.toAsn1Integer
          && answers.setVersion && answers.nameNew) then
        makeCertificateError objects (some serialNumber) none (some x509)
      else
        let name := objects.next
        let objects := objects.allocate .name
        if !(answers.addEntry && answers.setSubjectName && answers.setIssuerName
            && answers.adjustNotBefore && answers.adjustNotAfter && answers.sign) then
          makeCertificateError objects (some serialNumber) (some name) (some x509)
        else do
          let objects ←
            objects.setContent x509
              (.x509 (some
                ⟨params.commonName, x509TimeAdj params.notBefore, x509TimeAdj params.notAfter⟩))
          let objects ← freeAll objects [some serialNumber, some name]
          return (some x509, objects)

/-- `print_cert`, which frees what it allocates. -/
def printCert (answers : CertificateAnswers) (objects : Objects) : Option Objects :=
  if answers.bioNew then (objects.allocate .bio).release objects.next else some objects

/-- The constructor of `OpenSSLCertificate`. -/
def constructCertificate (objects : Objects) (x509 : Nat) : Option Objects :=
  objects.addReference x509

/-- The `actual_params` of `OpenSSLCertificate::generate`, with a random name for an empty one. -/
def SSLIdentityParams.actual (params : SSLIdentityParams) (randomName : List Char)
    : SSLIdentityParams :=
  if params.commonName.isEmpty then { params with commonName := randomName } else params

/-- `OpenSSLCertificate::generate`. -/
def generateOpenSSLCertificate (x509TimeAdj : Int → Asn1Time) (randomName : List Char)
    (params : SSLIdentityParams) (answers : CertificateAnswers) (objects : Objects)
    : Option (Result Nat × Objects) := do
  let (x509, objects) ← makeCertificate x509TimeAdj (params.actual randomName) answers objects
  match x509 with
  | none => return (.ofFailure answers.errors [], objects)
  | some x509 =>
      let objects ← printCert answers objects
      let objects ← constructCertificate objects x509
      let objects ← objects.release x509
      return (.made x509, objects)

/-- `SSLCertChain::copy` and the constructor from certificates: a reference more to each. -/
def copyChain (objects : Objects) (certs : List Nat) : Option (List Nat × Objects) :=
  (objects.addReferences certs).map fun objects => (certs, objects)

/-- `OpenSSLCertificate::certificate_expiration_time`; the inner `none` is a computation that
overflows.
-/
def X509.certificateExpirationTime (x509 : X509) : Option Int :=
  match x509.notAfter.type with
  | .utcTime => (asn1TimeToSec x509.notAfter.data x509.notAfter.length false).value
  | .generalizedTime => (asn1TimeToSec x509.notAfter.data x509.notAfter.length true).value
  | .other => some (-1)

-----------------------------------------------------------------------------------------
-- Identities
-----------------------------------------------------------------------------------------

/-- An `OpenSSLIdentity`: the `EVP_PKEY` of its key pair and the `X509`s of its chain. -/
structure Identity where
  keyPair : Nat
  certChain : List Nat
  deriving DecidableEq, Repr

/-- What the calls answer while an identity is generated, and the name for an empty one. -/
structure IdentityAnswers where
  key : KeyAnswers
  certificate : CertificateAnswers
  randomName : List Char
  deriving DecidableEq, Repr

/-- `OpenSSLIdentity::generate_internal`, which has the key pair while the certificate is made. -/
def generateInternal (x509TimeAdj : Int → Asn1Time) (keyParams : KeyParams)
    (params : SSLIdentityParams) (answers : IdentityAnswers) (objects : Objects)
    : Option (Result Identity × Objects) := do
  let (keyPair, objects) ← generateKeyPair keyParams answers.key objects
  match keyPair with
  | .failed => return (.failed, objects)
  | .hangs kept => return (.hangs kept, objects)
  | .made keyPair =>
      let (certificate, objects) ←
        generateOpenSSLCertificate x509TimeAdj answers.randomName params answers.certificate objects
      match certificate with
      | .made certificate => return (.made ⟨keyPair, [certificate]⟩, objects)
      | .hangs kept => return (.hangs (keyPair :: kept), objects)
      | .failed =>
          let objects ← objects.release keyPair
          return (.failed, objects)

def kDefaultCertificateLifetimeInSeconds : Int := 60 * 60 * 24 * 30

def kCertificateWindowInSeconds : Int := -60 * 60 * 24

/-- `OpenSSLIdentity::generate_with_expiration` at the time `now`. -/
def generateWithExpiration (x509TimeAdj : Int → Asn1Time) (commonName : List Char)
    (keyParams : KeyParams) (certificateLifetime now : Int) (answers : IdentityAnswers)
    (objects : Objects)
    : Option (Result Identity × Objects) :=
  let params : SSLIdentityParams :=
    ⟨commonName, now + kCertificateWindowInSeconds, now + certificateLifetime⟩
  if params.notBefore > params.notAfter then some (.failed, objects)
  else generateInternal x509TimeAdj keyParams params answers objects

def kIdentityName : List Char := "WebRTC".toList

def kYearInSeconds : Nat := 365 * 24 * 60 * 60

/-- The lifetime that `RTCCertificateGenerator::generate_certificate` asks for. -/
def certificateLifetime (expiresMs : BitVec 64) : Int :=
  if expiresMs = 0 then kDefaultCertificateLifetimeInSeconds
  else (min (expiresMs.toNat / 1000) kYearInSeconds : Nat)

/-- `RTCCertificateGenerator::generate_certificate`; the certificate is around the identity. -/
def generateCertificate (x509TimeAdj : Int → Asn1Time) (keyParams : KeyParams)
    (expiresMs : BitVec 64) (now : Int) (answers : IdentityAnswers) (objects : Objects)
    : Option (Result Identity × Objects) :=
  if !keyParams.isValid then some (.failed, objects)
  else
    generateWithExpiration x509TimeAdj kIdentityName keyParams (certificateLifetime expiresMs) now
      answers objects

/-- `OpenSSLIdentity::get_reference`. -/
def Identity.getReference (identity : Identity) (objects : Objects)
    : Option (Identity × Objects) := do
  let objects ← objects.addReference identity.keyPair
  let (certChain, objects) ← copyChain objects identity.certChain
  return (⟨identity.keyPair, certChain⟩, objects)

/-- What the calls of `setup_SSL_context` answer that take the identity, and the errors in the queue
after them.
-/
structure ContextAnswers where
  contextNew : Bool
  useCertificate : Bool
  usePrivateKey : Bool
  errors : List ErrorCode
  deriving DecidableEq, Repr

/-- `configure_identity` on the new context of `setup_SSL_context`, which is freed if that fails. A
context holds references of its own.
-/
def configureIdentity (identity : Identity) (answers : ContextAnswers) (objects : Objects)
    : Option (Result (Nat × Nat) × Objects) :=
  if !answers.contextNew then some (.failed, objects)
  else do
    let x509 ← identity.certChain.head?
    if !answers.useCertificate then return (.ofFailure answers.errors [], objects)
    else
      let objects ← objects.addReference x509
      if !answers.usePrivateKey then
        match logSslErrors answers.errors with
        | none => return (.hangs [x509], objects)
        | some _ =>
            let objects ← objects.release x509
            return (.failed, objects)
      else
        let objects ← objects.addReference identity.keyPair
        return (.made (x509, identity.keyPair), objects)

/-- `RTCCertificate::expires`, from the first certificate of the identity. -/
def RTCCertificate.expires (objects : Objects) (identity : Identity) : Option (BitVec 64) := do
  let x509 ← identity.certChain.head?
  match objects.content x509 with
  | some (.x509 (some fields)) =>
      let expires ← fields.certificateExpirationTime
      return if expires ≠ -1 then BitVec.ofInt 64 expires * 1000 else 0
  | _ => none

/-- `RTCCertificate::has_expired`. -/
def RTCCertificate.hasExpired (objects : Objects) (identity : Identity) (now : BitVec 64)
    : Option Bool :=
  (RTCCertificate.expires objects identity).map fun expires => expires ≤ now

-----------------------------------------------------------------------------------------
-- A program
-----------------------------------------------------------------------------------------

/-- What holds references: an identity, alone or in an `RTCCertificate`, a chain, a certificate, an
SSL context, a session with the certificate of the peer, and the locals of a call that never returns.
-/
inductive Holder where
  | identity (own : Identity)
  | chain (certs : List Nat)
  | certificate (x509 : Nat)
  | context (x509 privateKey : Nat)
  | session (x509 : Nat)
  | hanging (kept : List Nat)
  deriving DecidableEq, Repr

/-- The references of a holder, in the order in which its destructor drops them. -/
def Holder.references : Holder → List Nat
  | .identity own => own.certChain ++ [own.keyPair]
  | .chain certs => certs
  | .certificate x509 => [x509]
  | .context x509 privateKey => [x509, privateKey]
  | .session x509 => [x509]
  | .hanging kept => kept

/-- The holder that a call leaves. -/
def Result.holder? : Result Holder → Option Holder
  | .made holder => some holder
  | .failed => none
  | .hangs kept => some (.hanging kept)

/-- The holders that a program has, and the objects; `none` after something undefined. -/
structure Process where
  holders : List Holder
  objects : Option Objects

def Process.start : Process := ⟨[], some .empty⟩

/-- All references that are held. -/
def Process.references (process : Process) : List Nat :=
  process.holders.flatMap Holder.references

/-- What a program does next; holders are named by their places. -/
inductive Action where
  | generateWithExpiration (commonName : List Char) (keyParams : KeyParams)
      (certificateLifetime now : Int) (answers : IdentityAnswers)
  | generateCertificate (keyParams : KeyParams) (expiresMs : BitVec 64) (now : Int)
      (answers : IdentityAnswers)
  -- of an identity, a chain or a certificate
  | getReference (holder : Nat)
  -- the constructor of `SSLCertChain` from certificates
  | chainOf (holders : List Nat)
  | setupContext (holder : Nat) (answers : ContextAnswers)
  -- the peer's certificate arrives, and the verification callback keeps it
  | receive (fields : X509)
  | keepPeerCertificate (holder : Nat)
  | destroy (holder : Nat)

/-- A certificate was issued, for that time and lifetime. -/
structure Issue where
  x509 : Nat
  now : Int
  lifetime : Int
  deriving DecidableEq, Repr

/-- An operation on the objects that may leave a holder. -/
def Process.gain (process : Process) (outcome : Option (Result Holder × Objects)) : Process :=
  match outcome with
  | none => { process with objects := none }
  | some (result, objects) => ⟨process.holders ++ result.holder?.toList, some objects⟩

/-- The identity that an operation gave, as a holder. -/
def asIdentity (outcome : Option (Result Identity × Objects)) : Option (Result Holder × Objects) :=
  outcome.map fun outcome => (outcome.1.map Holder.identity, outcome.2)

/-- The issue that an operation made. -/
def issues (outcome : Option (Result Identity × Objects)) (now lifetime : Int) : List Issue :=
  ((outcome.bind fun outcome => outcome.1.value?).bind
    fun identity => identity.certChain.head?).toList.map fun x509 => ⟨x509, now, lifetime⟩

/-- `get_reference` of a holder; contexts, sessions and calls have none. -/
def Holder.getReference (objects : Objects) : Holder → Option (Option (Result Holder × Objects))
  | .identity own =>
      some ((own.getReference objects).map fun copy => (.made (.identity copy.1), copy.2))
  | .chain certs =>
      some ((copyChain objects certs).map fun copy => (.made (.chain copy.1), copy.2))
  | .certificate x509 =>
      some ((constructCertificate objects x509).map fun objects =>
        (.made (.certificate x509), objects))
  | .context _ _ => none
  | .session _ => none
  | .hanging _ => none

/-- The `X509` of a holder that is a certificate. -/
def Holder.x509? : Holder → Option Nat
  | .certificate x509 => some x509
  | _ => none

/-- One action. A call that never returns has no destructor; the rest of the program goes on. -/
def Process.step (x509TimeAdj : Int → Asn1Time) (process : Process) (action : Action)
    : Option (Process × List Issue) := do
  let objects ← process.objects
  match action with
  | .generateWithExpiration commonName keyParams lifetime now answers =>
      let outcome :=
        Certificates.generateWithExpiration x509TimeAdj commonName keyParams lifetime now answers
          objects
      return (process.gain (asIdentity outcome), issues outcome now lifetime)
  | .generateCertificate keyParams expiresMs now answers =>
      let outcome :=
        Certificates.generateCertificate x509TimeAdj keyParams expiresMs now answers objects
      return (process.gain (asIdentity outcome), issues outcome now (certificateLifetime expiresMs))
  | .getReference place =>
      let holder ← process.holders[place]?
      let outcome ← holder.getReference objects
      return (process.gain outcome, [])
  | .chainOf places =>
      let certs ← places.mapM fun place => (process.holders[place]?).bind Holder.x509?
      return (process.gain ((copyChain objects certs).map fun copy =>
        (.made (.chain copy.1), copy.2)), [])
  | .setupContext place answers =>
      match process.holders[place]? with
      | some (.identity own) =>
          return (process.gain ((configureIdentity own answers objects).map fun outcome =>
            (outcome.1.map fun held => .context held.1 held.2, outcome.2)), [])
      | _ => none
  | .receive fields =>
      return (process.gain (some
        (.made (.session objects.next), objects.allocate (.x509 (some fields)))), [])
  | .keepPeerCertificate place =>
      match process.holders[place]? with
      | some (.session x509) =>
          return (process.gain ((constructCertificate objects x509).map fun objects =>
            (.made (.certificate x509), objects)), [])
      | _ => none
  | .destroy place =>
      match process.holders[place]? with
      | none => none
      | some (.hanging _) => none
      | some holder =>
          return (⟨process.holders.eraseIdx place, objects.releaseAll holder.references⟩, [])

end RtcBase.Certificates
