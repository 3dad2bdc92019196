import RtcBase.Certificates.Identity
import RtcBase.Library.Interleaving

/-! Who owns the OpenSSL objects. Every operation, whatever the calls in it answer, leaves exactly the
references with its caller that its result holds; so no run leaks an object, frees one twice or uses
one that was freed. An operation that never returns keeps the references of its locals.
-/

namespace RtcBase.Certificates

open Library
open Library.CountedHeap (Accounts Extends)

variable {β : Type} {objects later : Objects} {held other : List Nat}

/-- An operation is defined and leaves the references of its result with the caller. -/
def Gives (references : β → List Nat) (objects : Objects) (held : List Nat)
    (outcome : Option (β × Objects)) : Prop :=
  ∃ result later,
    outcome = some (result, later)
    ∧ Accounts later (references result ++ held)
    ∧ Extends objects later

/-- The references that a call leaves: those of what it made, or those of its locals. -/
def Result.references (references : β → List Nat) : Result β → List Nat
  | .made value => references value
  | .failed => []
  | .hangs kept => kept

/-- A failure that keeps nothing leaves nothing, whether the call returns or not. -/
@[simp] theorem references_ofFailure (references : β → List Nat) (errors : List ErrorCode)
    : (Result.ofFailure errors [] : Result β).references references = [] := by
  cases errors <;> rfl

@[simp] theorem value?_ofFailure (errors : List ErrorCode) (kept : List Nat)
    : (Result.ofFailure errors kept : Result β).value? = none := by
  cases errors <;> rfl

/-- Lists with the same counts are accounts of the same heap. -/
theorem accounts_of_counts (accounts : Accounts objects held)
    (same : ∀ o, held.count o = other.count o)
    : Accounts objects other :=
  accounts.perm (List.perm_iff_count.mpr same)

/-- An operation after some others. -/
theorem Gives.after {references : β → List Nat} {outcome : Option (β × Objects)}
    (gives : Gives references later held outcome) (extension : Extends objects later)
    : Gives references objects held outcome := by
  obtain ⟨result, final, succeeds, accounts, onward⟩ := gives
  exact ⟨result, final, succeeds, accounts, extension.trans onward⟩

theorem newObject_accounts (accounts : Accounts objects held) (available : Bool) (object : Object)
    : Accounts (newObject objects available object).2
        ((newObject objects available object).1.toList ++ held)
      ∧ Extends objects (newObject objects available object).2 := by
  cases available with
  | true => exact ⟨accounts.allocate object, .allocate objects object⟩
  | false => exact ⟨accounts, .refl objects⟩

/-- Pointers that are freed at the end of a branch without a result. -/
theorem freeAll_gives {pointers : List (Option Nat)}
    (accounts : Accounts objects (pointers.filterMap id ++ held))
    : Gives Option.toList objects held
        ((freeAll objects pointers).map fun objects => (none, objects)) := by
  obtain ⟨later, succeeds, accounts, extension⟩ := accounts.releaseAll
  exact ⟨none, later, by rw [freeAll, succeeds]; rfl, accounts, extension⟩

-----------------------------------------------------------------------------------------
-- Key pairs
-----------------------------------------------------------------------------------------

/-- The RSA branch frees all but the key pair, and that too if something fails. -/
theorem makeRsaKey_gives {pkey : Option Nat} (answers : KeyAnswers)
    (accounts : Accounts objects (pkey.toList ++ held))
    : Gives Option.toList objects held (makeRsaKey answers objects pkey) := by
  obtain ⟨accounts, extension⟩ := newObject_accounts accounts answers.exponentNew .bignum
  unfold makeRsaKey
  generalize newObject objects answers.exponentNew .bignum = made at accounts extension ⊢
  obtain ⟨exponent, middle⟩ := made
  obtain ⟨accounts, onward⟩ := newObject_accounts accounts answers.keyNew .key
  dsimp only at accounts onward ⊢
  generalize newObject middle answers.keyNew .key = made at accounts onward ⊢
  obtain ⟨rsa, later⟩ := made
  have freed (pkey exponent rsa : Option Nat)
      (accounts : Accounts later (rsa.toList ++ (exponent.toList ++ (pkey.toList ++ held))))
      : Accounts later ([pkey, exponent, rsa].filterMap id ++ held) := by
    refine accounts_of_counts accounts fun o => ?_
    cases pkey <;> cases exponent <;> cases rsa <;> simp [List.count_cons] <;> omega
  refine Gives.after ?_ (extension.trans onward)
  rcases pkey with - | pkey
  · exact freeAll_gives (freed none exponent rsa accounts)
  rcases exponent with - | exponent
  · exact freeAll_gives (freed (some pkey) none rsa accounts)
  rcases rsa with - | rsa
  · exact freeAll_gives (freed (some pkey) (some exponent) none accounts)
  dsimp only
  split_ifs
  · obtain ⟨assigned, assigns, accounts, first⟩ := Accounts.release accounts
    obtain ⟨final, frees, accounts, second⟩ :
        ∃ final, freeAll assigned [some exponent] = some final ∧ Accounts final (pkey :: held)
          ∧ Extends assigned final := Accounts.releaseAll accounts
    exact ⟨some pkey, final, by simp [assignKey, assigns, frees], accounts, first.trans second⟩
  · exact freeAll_gives (freed (some pkey) (some exponent) (some rsa) accounts)

/-- The branch for elliptic curves does the same, if there is memory for the key. -/
theorem makeEcKey_gives {pkey : Option Nat} {answers : KeyAnswers} (available : answers.keyNew = true)
    (accounts : Accounts objects (pkey.toList ++ held))
    : Gives Option.toList objects held (makeEcKey answers objects pkey) := by
  have accounts := accounts.allocate .key
  unfold makeEcKey
  simp only [newObject, available, if_true]
  refine Gives.after ?_ (.allocate objects .key)
  split_ifs with succeeds
  · obtain ⟨assigned, assigns, accounts, extension⟩ := accounts.release
    exact ⟨pkey, assigned, by simp [assignKey, assigns], accounts, extension⟩
  · refine freeAll_gives (accounts_of_counts accounts fun o => ?_)
    cases pkey <;> simp [List.count_cons]; omega

/-- Where the key pair is for an elliptic curve there is memory for the key: its flag is set before
it is checked.
-/
def KeyAnswers.Fit (params : KeyParams) (answers : KeyAnswers) : Prop :=
  params = .ecdsa .nistP256 → answers.keyNew = true

/-- `make_key` leaves the key pair with its caller, or nothing. -/
theorem makeKey_gives {params : KeyParams} {answers : KeyAnswers} (fit : answers.Fit params)
    (accounts : Accounts objects held)
    : Gives Option.toList objects held (makeKey params answers objects) := by
  obtain ⟨accounts, extension⟩ := newObject_accounts accounts answers.pkeyNew .pkey
  unfold makeKey
  generalize newObject objects answers.pkeyNew .pkey = made at accounts extension ⊢
  obtain ⟨pkey, middle⟩ := made
  refine Gives.after ?_ extension
  have freed : Accounts middle ([pkey].filterMap id ++ held) := by
    cases pkey <;> exact accounts
  cases params with
  | rsa modSize pubExp => exact makeRsaKey_gives answers accounts
  | ecdsa curve =>
      cases curve with
      | nistP256 => exact makeEcKey_gives (fit rfl) accounts
      | last => exact freeAll_gives freed
  | last => exact freeAll_gives freed

/-- `OpenSSLKeyPair::generate` leaves the key pair with its caller, or nothing. -/
theorem generateKeyPair_gives {params : KeyParams} {answers : KeyAnswers} (fit : answers.Fit params)
    (accounts : Accounts objects held)
    : Gives (Result.references fun pkey => [pkey]) objects held
        (generateKeyPair params answers objects) := by
  obtain ⟨pkey, later, makes, accounts, extension⟩ := makeKey_gives fit accounts
  cases pkey with
  | none =>
      exact ⟨.ofFailure answers.errors [], later, by rw [generateKeyPair, makes]; rfl,
        by simpa using accounts, extension⟩
  | some pkey => exact ⟨.made pkey, later, by rw [generateKeyPair, makes]; rfl, accounts, extension⟩

-----------------------------------------------------------------------------------------
-- Certificates
-----------------------------------------------------------------------------------------

/-- An `X509` that was made after a moment, with its fields. -/
structure Issued (fields : X509) (start later : Objects) (x509 : Nat) : Prop where
  new : start.next ≤ x509
  content : later.content x509 = some (.x509 (some fields))

/-- An operation leaves an `X509` with its caller, or nothing. -/
def GivesX509 (fields : X509) (objects : Objects) (held : List Nat)
    (outcome : Option (Option Nat × Objects)) : Prop :=
  ∃ result later,
    outcome = some (result, later)
    ∧ Accounts later (result.toList ++ held)
    ∧ Extends objects later
    ∧ ∀ x509 ∈ result, Issued fields objects later x509

/-- An operation leaves a certificate with its caller, or what its locals keep. -/
def GivesCertificate (fields : X509) (objects : Objects) (held : List Nat)
    (outcome : Option (Result Nat × Objects)) : Prop :=
  ∃ result later,
    outcome = some (result, later)
    ∧ Accounts later (result.references (fun x509 => [x509]) ++ held)
    ∧ Extends objects later
    ∧ ∀ x509 ∈ result.value?, Issued fields objects later x509

/-- The fields that `make_certificate` sets. -/
def SSLIdentityParams.fields (x509TimeAdj : Int → Asn1Time) (params : SSLIdentityParams) : X509 :=
  ⟨params.commonName, x509TimeAdj params.notBefore, x509TimeAdj params.notAfter⟩

/-- The label `error` leaves nothing. -/
theorem makeCertificateError_gives {serialNumber name x509 : Option Nat} {start : Objects}
    (fields : X509) (extension : Extends start objects)
    (accounts : Accounts objects (name.toList ++ (serialNumber.toList ++ (x509.toList ++ held))))
    : GivesX509 fields start held (makeCertificateError objects serialNumber name x509) := by
  have freed : Accounts objects ([serialNumber, name, x509].filterMap id ++ held) := by
    refine accounts_of_counts accounts fun o => ?_
    cases serialNumber <;> cases name <;> cases x509 <;> simp [List.count_cons] <;> omega
  obtain ⟨later, frees, accounts, onward⟩ := freed.releaseAll
  exact ⟨none, later, by rw [makeCertificateError, freeAll, frees]; rfl, accounts,
    extension.trans onward, by simp⟩

/-- `make_certificate` frees all but the certificate, and that too if something fails. -/
theorem makeCertificate_gives (x509TimeAdj : Int → Asn1Time) (params : SSLIdentityParams)
    (answers : CertificateAnswers) (accounts : Accounts objects held)
    : GivesX509 (params.fields x509TimeAdj) objects held
        (makeCertificate x509TimeAdj params answers objects) := by
  unfold makeCertificate
  split_ifs with noX509 noSerial noName noSign
  · exact makeCertificateError_gives _ (.refl objects) accounts
  all_goals
    have first := accounts.allocate (.x509 none)
    have firstExtends := Extends.allocate objects (.x509 none)
  · exact makeCertificateError_gives _ firstExtends first
  all_goals
    dsimp only
    have second := first.allocate .bignum
    have secondExtends := firstExtends.trans (.allocate _ .bignum)
  · exact makeCertificateError_gives _ secondExtends second
  all_goals
    have third := second.allocate .name
    have thirdExtends := secondExtends.trans (.allocate _ .name)
  · exact makeCertificateError_gives _ thirdExtends third
  · generalize (objects.allocate (.x509 none)).next = serialNumber at *
    generalize ((objects.allocate (.x509 none)).allocate .bignum).next = name at *
    generalize ((objects.allocate (.x509 none)).allocate .bignum).allocate .name = full at *
    obtain ⟨filled, sets, accounts, content, onward⟩ :=
      third.setContent (o := objects.next) (by simp) (.x509 (some (params.fields x509TimeAdj)))
    have old := accounts.lt_next (o := objects.next) (by simp)
    obtain ⟨later, frees, accounts, extension⟩
        : ∃ later, freeAll filled [some serialNumber, some name] = some later
            ∧ Accounts later (objects.next :: held) ∧ Extends filled later :=
      (accounts.perm (List.Perm.swap _ _ _)).releaseAll
    refine ⟨some objects.next, later, ?_, accounts,
      (onward thirdExtends (Nat.le_refl _)).trans extension, ?_⟩
    · rw [SSLIdentityParams.fields] at sets
      simp [sets, frees]
    · rintro x509 ⟨⟩
      exact ⟨Nat.le_refl _, (extension.content_eq accounts (by simp) old).trans content⟩

/-- `print_cert` leaves nothing. -/
theorem printCert_accounts (answers : CertificateAnswers) (accounts : Accounts objects held)
    : ∃ later, printCert answers objects = some later ∧ Accounts later held
        ∧ Extends objects later := by
  unfold printCert
  split_ifs
  · obtain ⟨later, frees, accounts, extension⟩ := (accounts.allocate .bio).release
    exact ⟨later, frees, accounts, (Extends.allocate objects .bio).trans extension⟩
  · exact ⟨objects, rfl, accounts, .refl objects⟩

/-- `OpenSSLCertificate::generate` exchanges the reference of `make_certificate` for its own. -/
theorem generateOpenSSLCertificate_gives (x509TimeAdj : Int → Asn1Time) (randomName : List Char)
    (params : SSLIdentityParams) (answers : CertificateAnswers) (accounts : Accounts objects held)
    : GivesCertificate ((params.actual randomName).fields x509TimeAdj) objects held
        (generateOpenSSLCertificate x509TimeAdj randomName params answers objects) := by
  obtain ⟨result, made, makes, accounts, extension, issued⟩ :=
    makeCertificate_gives x509TimeAdj (params.actual randomName) answers accounts
  cases result with
  | none =>
      exact ⟨.ofFailure answers.errors [], made, by simp [generateOpenSSLCertificate, makes],
        by simpa using accounts, extension, by simp⟩
  | some x509 =>
      obtain ⟨new, content⟩ := issued x509 rfl
      obtain ⟨printed, prints, accounts, first⟩ := printCert_accounts answers accounts
      obtain ⟨wrapped, wraps, accounts, second⟩ :=
        accounts.addReference (o := x509) (by simp)
      obtain ⟨later, frees, accounts, third⟩ := accounts.release
      have onward := (first.trans second).trans third
      have old : x509 < made.next := by
        obtain ⟨object, live, -⟩ := Option.map_eq_some_iff.mp content
        exact made.lt_next live
      refine ⟨.made x509, later, ?_, accounts, extension.trans onward, ?_⟩
      · simp [generateOpenSSLCertificate, makes, prints, constructCertificate, wraps, frees]
      · rintro same ⟨⟩
        exact ⟨new, (onward.content_eq accounts (by simp) old).trans content⟩

-----------------------------------------------------------------------------------------
-- Identities
-----------------------------------------------------------------------------------------

/-- An operation leaves an identity with its caller, or what its locals keep. -/
def GivesIdentity (fields : X509) (objects : Objects) (held : List Nat)
    (outcome : Option (Result Identity × Objects)) : Prop :=
  ∃ result later,
    outcome = some (result, later)
    ∧ Accounts later (result.references (fun own => (Holder.identity own).references) ++ held)
    ∧ Extends objects later
    ∧ ∀ identity ∈ result.value?,
        ∃ x509, identity.certChain = [x509] ∧ Issued fields objects later x509

/-- `generate_internal` frees the key pair if there is no certificate, and keeps it while there is
none yet.
-/
theorem generateInternal_gives (x509TimeAdj : Int → Asn1Time) {keyParams : KeyParams}
    (params : SSLIdentityParams) {answers : IdentityAnswers} (fit : answers.key.Fit keyParams)
    (accounts : Accounts objects held)
    : GivesIdentity ((params.actual answers.randomName).fields x509TimeAdj) objects held
        (generateInternal x509TimeAdj keyParams params answers objects) := by
  obtain ⟨keyPair, paired, makes, accounts, first⟩ := generateKeyPair_gives fit accounts
  cases keyPair with
  | failed =>
      exact ⟨.failed, paired, by simp [generateInternal, makes], accounts, first,
        by simp [Result.value?]⟩
  | hangs kept =>
      exact ⟨.hangs kept, paired, by simp [generateInternal, makes], accounts, first,
        by simp [Result.value?]⟩
  | made keyPair =>
      obtain ⟨certificate, made, generates, accounts, second, issued⟩ :=
        generateOpenSSLCertificate_gives x509TimeAdj answers.randomName params answers.certificate
          accounts
      cases certificate with
      | failed =>
          obtain ⟨later, frees, accounts, third⟩ := Accounts.release accounts
          exact ⟨.failed, later, by simp [generateInternal, makes, generates, frees], accounts,
            (first.trans second).trans third, by simp [Result.value?]⟩
      | hangs kept =>
          refine ⟨.hangs (keyPair :: kept), made, by simp [generateInternal, makes, generates],
            ?_, first.trans second, by simp [Result.value?]⟩
          exact Accounts.perm accounts List.perm_middle
      | made x509 =>
          obtain ⟨new, content⟩ := issued x509 rfl
          refine ⟨.made ⟨keyPair, [x509]⟩, made, by simp [generateInternal, makes, generates],
            accounts, first.trans second, ?_⟩
          rintro identity ⟨⟩
          exact ⟨x509, rfl, Nat.le_trans first.next new, content⟩

/-- `generate_with_expiration` does nothing for a lifetime that is over before it begins. -/
theorem generateWithExpiration_gives (x509TimeAdj : Int → Asn1Time) (commonName : List Char)
    {keyParams : KeyParams} (lifetime now : Int) {answers : IdentityAnswers}
    (fit : answers.key.Fit keyParams) (accounts : Accounts objects held)
    : GivesIdentity
        ((SSLIdentityParams.actual ⟨commonName, now + kCertificateWindowInSeconds, now + lifetime⟩
          answers.randomName).fields x509TimeAdj)
        objects held
        (generateWithExpiration x509TimeAdj commonName keyParams lifetime now answers objects) := by
  unfold generateWithExpiration
  dsimp only
  split_ifs
  · exact ⟨.failed, objects, rfl, accounts, .refl objects, by simp [Result.value?]⟩
  · exact generateInternal_gives x509TimeAdj _ fit accounts

/-- `generate_certificate` does nothing for parameters that are not valid. -/
theorem generateCertificate_gives (x509TimeAdj : Int → Asn1Time) {keyParams : KeyParams}
    (expiresMs : BitVec 64) (now : Int) {answers : IdentityAnswers}
    (fit : answers.key.Fit keyParams) (accounts : Accounts objects held)
    : GivesIdentity
        ((SSLIdentityParams.actual
          ⟨kIdentityName, now + kCertificateWindowInSeconds, now + certificateLifetime expiresMs⟩
          answers.randomName).fields x509TimeAdj)
        objects held
        (generateCertificate x509TimeAdj keyParams expiresMs now answers objects) := by
  unfold generateCertificate
  split_ifs
  · exact ⟨.failed, objects, rfl, accounts, .refl objects, by simp [Result.value?]⟩
  · exact generateWithExpiration_gives x509TimeAdj kIdentityName _ now fit accounts

/-- An operation leaves a holder with its caller, or what its locals keep. -/
abbrev GivesHolder (objects : Objects) (held : List Nat)
    (outcome : Option (Result Holder × Objects)) : Prop :=
  Gives (Result.references Holder.references) objects held outcome

/-- The references that a call leaves are those of the holder that it leaves. -/
theorem holder?_references (result : Result Holder)
    : result.holder?.toList.flatMap Holder.references = result.references Holder.references := by
  cases result <;> simp [Result.holder?, Result.references, Holder.references]

/-- Copies of certificates that are held. -/
theorem copyChain_accounts (certs : List Nat) (accounts : Accounts objects held)
    (members : ∀ x509 ∈ certs, x509 ∈ held)
    : ∃ later, copyChain objects certs = some (certs, later) ∧ Accounts later (certs ++ held)
        ∧ Extends objects later := by
  obtain ⟨later, succeeds, accounts, extension⟩ := accounts.addReferences members
  exact ⟨later, by rw [copyChain, succeeds]; rfl, accounts, extension⟩

/-- `get_reference` of a holder whose references are held. -/
theorem getReference_gives {holder : Holder} (accounts : Accounts objects held)
    (members : ∀ o ∈ holder.references, o ∈ held)
    {outcome : Option (Result Holder × Objects)} (asks : holder.getReference objects = some outcome)
    : GivesHolder objects held outcome := by
  cases holder with
  | identity own =>
      obtain rfl := Option.some.inj asks
      obtain ⟨middle, adds, accounts, first⟩ :=
        accounts.addReference (o := own.keyPair) (members _ (by simp [Holder.references]))
      obtain ⟨later, copies, accounts, second⟩ :=
        copyChain_accounts own.certChain accounts
          fun o there => List.mem_cons_of_mem _ (members o (by simp [Holder.references, there]))
      refine ⟨.made (.identity own), later, ?_, ?_, first.trans second⟩
      · simp [Identity.getReference, adds, copies]
      · simpa [Result.references, Holder.references] using accounts
  | chain certs =>
      obtain rfl := Option.some.inj asks
      obtain ⟨later, copies, accounts, extension⟩ := copyChain_accounts certs accounts members
      exact ⟨.made (.chain certs), later, by rw [copies]; rfl, accounts, extension⟩
  | certificate x509 =>
      obtain rfl := Option.some.inj asks
      obtain ⟨later, adds, accounts, extension⟩ :=
        accounts.addReference (o := x509) (members _ (by simp [Holder.references]))
      exact ⟨.made (.certificate x509), later, by rw [constructCertificate, adds]; rfl, accounts,
        extension⟩
  | context => cases asks
  | session => cases asks
  | hanging => cases asks

/-- `configure_identity` on a new context: a context that is freed keeps no reference, and one whose
failure is being logged keeps what it took.
-/
theorem configureIdentity_gives {identity : Identity} (answers : ContextAnswers) {x509 : Nat}
    (first : identity.certChain.head? = some x509) (accounts : Accounts objects held)
    (members : ∀ o ∈ (Holder.identity identity).references, o ∈ held)
    : GivesHolder objects held
        ((configureIdentity identity answers objects).map fun outcome =>
          (outcome.1.map fun held => .context held.1 held.2, outcome.2)) := by
  have there : x509 ∈ held :=
    members x509 (by simp [Holder.references, List.mem_of_head? first])
  obtain ⟨withX509, uses, accountsX509, extensionX509⟩ := accounts.addReference there
  unfold configureIdentity
  simp only [first, Option.bind_eq_bind, Option.bind_some]
  split_ifs
  · exact ⟨.failed, objects, rfl, accounts, .refl objects⟩
  · refine ⟨.ofFailure answers.errors [], objects, ?_, by simpa using accounts, .refl objects⟩
    cases answers.errors <;> rfl
  · cases answers.errors with
    | nil =>
        exact ⟨.hangs [x509], withX509, by simp [uses, logSslErrors, Result.map], accountsX509,
          extensionX509⟩
    | cons error rest =>
        obtain ⟨later, frees, accounts, onward⟩ := accountsX509.release
        exact ⟨.failed, later, by simp [uses, frees, logSslErrors, Result.map], accounts,
          extensionX509.trans onward⟩
  · obtain ⟨later, usesKey, accounts, onward⟩ :=
      accountsX509.addReference (o := identity.keyPair)
        (List.mem_cons_of_mem _ (members _ (by simp [Holder.references])))
    refine ⟨.made (.context x509 identity.keyPair), later,
      by simp [uses, usesKey, Result.map], ?_, extensionX509.trans onward⟩
    exact accounts.perm (List.Perm.swap _ _ _)

-----------------------------------------------------------------------------------------
-- Runs
-----------------------------------------------------------------------------------------

variable {x509TimeAdj : Int → Asn1Time} {history : List Issue} {process : Process}

/-- An object is the certificate of an issue. -/
def Issue.Describes (x509TimeAdj : Int → Asn1Time) (issue : Issue) (object : Object) : Prop :=
  ∃ fields,
    object = .x509 (some fields) ∧ fields.notAfter = x509TimeAdj (issue.now + issue.lifetime)

/-- What holds between any two actions: the references of the objects are those that the holders
have, a certificate that was issued and is alive is as it was issued, and the first certificate of
an identity was issued.
-/
structure Sound (x509TimeAdj : Int → Asn1Time) (history : List Issue) (process : Process)
    (objects : Objects) : Prop where
  defined : process.objects = some objects
  accounts : Accounts objects process.references
  issued
    : ∀ issue ∈ history,
        issue.x509 < objects.next
        ∧ ∀ object, objects.content issue.x509 = some object → issue.Describes x509TimeAdj object
  identities
    : ∀ own, .identity own ∈ process.holders →
        ∃ issue ∈ history, own.certChain.head? = some issue.x509

/-- An issue goes on to describe its certificate. -/
theorem Extends.describes {issue : Issue} (extension : Extends objects later)
    (known
      : issue.x509 < objects.next
        ∧ ∀ object, objects.content issue.x509 = some object → issue.Describes x509TimeAdj object)
    : issue.x509 < later.next
      ∧ ∀ object, later.content issue.x509 = some object → issue.Describes x509TimeAdj object := by
  refine ⟨Nat.lt_of_lt_of_le known.1 extension.next, ?_⟩
  intro object found
  obtain ⟨counted, live, rfl⟩ := Option.map_eq_some_iff.mp found
  exact known.2 _ (extension.contents issue.x509 known.1 counted live)

/-- A holder that an operation left joins the others. -/
theorem Sound.gain (sound : Sound x509TimeAdj history process objects)
    {outcome : Option (Result Holder × Objects)}
    (gives : GivesHolder objects process.references outcome) (more : List Issue)
    (fresh
      : ∀ result later, outcome = some (result, later) →
          (∀ issue ∈ more,
            issue.x509 < later.next
            ∧ ∀ object, later.content issue.x509 = some object
                → issue.Describes x509TimeAdj object)
          ∧ ∀ own, result = .made (.identity own) →
              ∃ issue ∈ history ++ more, own.certChain.head? = some issue.x509)
    : ∃ later, Sound x509TimeAdj (history ++ more) (process.gain outcome) later := by
  obtain ⟨result, later, rfl, accounts, extension⟩ := gives
  obtain ⟨described, identified⟩ := fresh result later rfl
  refine ⟨later, rfl, ?_, ?_, ?_⟩
  · refine accounts.perm ?_
    simp only [Process.references, Process.gain, List.flatMap_append, holder?_references]
    exact List.perm_append_comm
  · intro issue member
    rcases List.mem_append.mp member with old | new
    · exact Extends.describes extension (sound.issued issue old)
    · exact described issue new
  · intro own member
    rcases List.mem_append.mp member with old | new
    · obtain ⟨issue, known, first⟩ := sound.identities own old
      exact ⟨issue, List.mem_append_left _ known, first⟩
    · refine identified own ?_
      cases result with
      | made holder => exact congrArg Result.made (Option.some.inj (Option.mem_toList.mp new))
      | failed => cases new
      | hangs kept => cases Option.mem_toList.mp new

/-- An identity that an operation gave joins the others, and so does its issue. -/
theorem Sound.gainIdentity (sound : Sound x509TimeAdj history process objects)
    {outcome : Option (Result Identity × Objects)} {fields : X509} {now lifetime : Int}
    (expires : fields.notAfter = x509TimeAdj (now + lifetime))
    (gives : GivesIdentity fields objects process.references outcome)
    : ∃ later, Sound x509TimeAdj (history ++ issues outcome now lifetime)
        (process.gain (asIdentity outcome)) later := by
  obtain ⟨result, later, rfl, accounts, extension, issued⟩ := gives
  have sameReferences
      : result.references (fun own => (Holder.identity own).references)
        = (result.map Holder.identity).references Holder.references := by
    cases result <;> rfl
  rw [sameReferences] at accounts
  refine sound.gain ⟨result.map .identity, later, rfl, accounts, extension⟩ _ ?_
  rintro holder same ⟨⟩
  cases result with
  | failed => exact ⟨by simp [issues, Result.value?], by simp [Result.map]⟩
  | hangs kept => exact ⟨by simp [issues, Result.value?], by simp [Result.map]⟩
  | made identity =>
      obtain ⟨x509, chain, new, content⟩ := issued identity rfl
      have old : x509 < later.next := by
        obtain ⟨object, live, -⟩ := Option.map_eq_some_iff.mp content
        exact later.lt_next live
      refine ⟨?_, ?_⟩
      · intro issue member
        obtain rfl : issue = ⟨x509, now, lifetime⟩ := by
          simpa [issues, Result.value?, chain] using member
        refine ⟨old, ?_⟩
        intro object found
        rw [content] at found
        exact ⟨fields, (Option.some.inj found).symm, expires⟩
      · rintro own ⟨⟩
        exact ⟨⟨x509, now, lifetime⟩, by simp [issues, Result.value?, chain], by rw [chain]; rfl⟩

/-- A holder's references are held. -/
theorem mem_references {holder : Holder} {place : Nat}
    (there : process.holders[place]? = some holder)
    : ∀ o ∈ holder.references, o ∈ process.references :=
  fun _ member =>
    List.mem_flatMap.mpr ⟨holder, List.mem_of_getElem? there, member⟩

/-- A holder that is no new identity and that an operation left joins the others. -/
theorem Sound.gainOther (sound : Sound x509TimeAdj history process objects)
    {outcome : Option (Result Holder × Objects)}
    (gives : GivesHolder objects process.references outcome)
    (known
      : ∀ own later, outcome = some (.made (.identity own), later) →
          .identity own ∈ process.holders)
    : ∃ later, Sound x509TimeAdj (history ++ []) (process.gain outcome) later := by
  refine sound.gain gives [] ?_
  rintro holder later rfl
  refine ⟨by simp, ?_⟩
  rintro own rfl
  obtain ⟨issue, member, first⟩ := sound.identities own (known own later rfl)
  exact ⟨issue, List.mem_append_left _ member, first⟩

/-- A holder is destroyed with its references. -/
theorem Sound.destroy (sound : Sound x509TimeAdj history process objects) {holder : Holder}
    {place : Nat} (there : process.holders[place]? = some holder)
    : ∃ later,
        Sound x509TimeAdj (history ++ [])
          ⟨process.holders.eraseIdx place, objects.releaseAll holder.references⟩ later := by
  obtain ⟨inside, rfl⟩ := List.getElem?_eq_some_iff.mp there
  have exchanged := (List.getElem_cons_eraseIdx_perm inside).flatMap_right Holder.references
  rw [List.flatMap_cons] at exchanged
  obtain ⟨later, succeeds, accounts, extension⟩ :=
    (sound.accounts.perm exchanged.symm).releaseAll
  refine ⟨later, succeeds, accounts, ?_, ?_⟩
  · intro issue member
    rw [List.append_nil] at member
    exact Extends.describes extension (sound.issued issue member)
  · intro own member
    rw [List.append_nil]
    exact sound.identities own (List.mem_of_mem_eraseIdx member)

/-- `get_reference` of an identity is the same identity. -/
theorem eq_of_getReference {holder copy : Holder}
    (asks : holder.getReference objects = some (some (.made copy, later)))
    : copy = holder := by
  cases holder with
  | identity own =>
      obtain ⟨outcome, refers, equal⟩ := Option.map_eq_some_iff.mp (Option.some.inj asks)
      obtain ⟨added, -, middle, -, rfl⟩
          : ∃ added, objects.addReference own.keyPair = some added
              ∧ ∃ middle, added.addReferences own.certChain = some middle
                ∧ (own, middle) = outcome := by
        simpa [Identity.getReference, copyChain, Option.bind_eq_some_iff] using refers
      exact (Result.made.inj (Prod.mk.inj equal).1).symm
  | chain certs =>
      obtain ⟨outcome, copies, equal⟩ := Option.map_eq_some_iff.mp (Option.some.inj asks)
      obtain ⟨middle, -, rfl⟩ := Option.map_eq_some_iff.mp copies
      exact (Result.made.inj (Prod.mk.inj equal).1).symm
  | certificate x509 =>
      obtain ⟨middle, -, equal⟩ := Option.map_eq_some_iff.mp (Option.some.inj asks)
      exact (Result.made.inj (Prod.mk.inj equal).1).symm
  | context => cases asks
  | session => cases asks
  | hanging => cases asks

/-- The certificates at some places are held, by induction on the places. -/
theorem mem_references_of_mapM {places certs : List Nat}
    (finds : places.mapM (fun place => (process.holders[place]?).bind Holder.x509?) = some certs)
    : ∀ x509 ∈ certs, x509 ∈ process.references := by
  induction places generalizing certs with
  | nil =>
      obtain rfl : [] = certs := by simpa using finds
      simp
  | cons place rest ih =>
      obtain ⟨x509, ⟨holder, there, isCertificate⟩, others, found, rfl⟩
          : ∃ x509,
              (∃ holder, process.holders[place]? = some holder ∧ holder.x509? = some x509)
              ∧ ∃ others,
                  rest.mapM (fun place => (process.holders[place]?).bind Holder.x509?)
                    = some others
                  ∧ x509 :: others = certs := by
        simpa [List.mapM_cons, Option.bind_eq_some_iff] using finds
      refine List.forall_mem_cons.mpr ⟨mem_references there x509 ?_, ih found⟩
      cases holder <;> simp_all [Holder.x509?, Holder.references]

/-- The calls of an action have what they need: where a key for an elliptic curve is made there is
memory for it.
-/
def Action.Fits : Action → Prop
  | .generateWithExpiration _ keyParams _ _ answers => answers.key.Fit keyParams
  | .generateCertificate keyParams _ _ answers => answers.key.Fit keyParams
  | _ => True

/-- Every action keeps the account, by cases on the action. -/
theorem Sound.step (sound : Sound x509TimeAdj history process objects) {action : Action}
    (fits : action.Fits) {next : Process × List Issue}
    (enabled : next ∈ process.step x509TimeAdj action)
    : ∃ later, Sound x509TimeAdj (history ++ next.2) next.1 later := by
  simp only [Process.step, sound.defined, Option.mem_def, Option.bind_eq_bind, Option.bind_some]
    at enabled
  cases action with
  | generateWithExpiration commonName keyParams lifetime now answers =>
      obtain rfl := Option.some.inj enabled
      refine sound.gainIdentity ?_
        (generateWithExpiration_gives x509TimeAdj commonName lifetime now fits sound.accounts)
      simp only [SSLIdentityParams.actual, SSLIdentityParams.fields]
      split_ifs <;> rfl
  | generateCertificate keyParams expiresMs now answers =>
      obtain rfl := Option.some.inj enabled
      refine sound.gainIdentity ?_
        (generateCertificate_gives x509TimeAdj expiresMs now fits sound.accounts)
      simp only [SSLIdentityParams.actual, SSLIdentityParams.fields]
      split_ifs <;> rfl
  | getReference place =>
      obtain ⟨holder, there, outcome, asks, equal⟩
          : ∃ holder, process.holders[place]? = some holder
              ∧ ∃ outcome, holder.getReference objects = some outcome
                ∧ (process.gain outcome, []) = next := by
        simpa [Option.bind_eq_some_iff] using enabled
      subst equal
      refine sound.gainOther (getReference_gives sound.accounts (mem_references there) asks) ?_
      rintro own later rfl
      rw [eq_of_getReference asks]
      exact List.mem_of_getElem? there
  | chainOf places =>
      obtain ⟨certs, finds, equal⟩
          : ∃ certs,
              places.mapM (fun place => (process.holders[place]?).bind Holder.x509?) = some certs
              ∧ (process.gain ((copyChain objects certs).map fun copy =>
                  (.made (.chain copy.1), copy.2)), []) = next := by
        simpa [Option.bind_eq_some_iff] using enabled
      subst equal
      obtain ⟨later, copies, accounts, extension⟩ :=
        copyChain_accounts certs sound.accounts (mem_references_of_mapM finds)
      refine sound.gainOther
        ⟨.made (.chain certs), later, by rw [copies]; rfl, accounts, extension⟩ ?_
      simp [copies]
  | setupContext place answers =>
      dsimp only at enabled
      split at enabled
      next own there =>
        obtain rfl := Option.some.inj enabled
        obtain ⟨issue, -, first⟩ := sound.identities own (List.mem_of_getElem? there)
        refine sound.gainOther
          (configureIdentity_gives answers first sound.accounts (mem_references there)) ?_
        intro own later equal
        obtain ⟨outcome, -, equal⟩ := Option.map_eq_some_iff.mp equal
        cases context : outcome.1 <;> simp [context, Result.map] at equal
      next => cases enabled
  | receive fields =>
      obtain rfl := Option.some.inj enabled
      refine sound.gainOther
        ⟨.made (.session objects.next), _, rfl, sound.accounts.allocate _, .allocate objects _⟩ ?_
      simp
  | keepPeerCertificate place =>
      dsimp only at enabled
      split at enabled
      next x509 there =>
        obtain rfl := Option.some.inj enabled
        obtain ⟨later, adds, accounts, extension⟩ :=
          sound.accounts.addReference
            (mem_references there x509 (by simp [Holder.references]))
        refine sound.gainOther
          ⟨.made (.certificate x509), later, by rw [constructCertificate, adds]; rfl, accounts,
            extension⟩ ?_
        simp [constructCertificate, adds]
      next => cases enabled
  | destroy place =>
      dsimp only at enabled
      split at enabled
      next => cases enabled
      next => cases enabled
      next holder _ there =>
        obtain rfl := Option.some.inj enabled
        exact sound.destroy there

/-- New processes have nothing. -/
theorem Sound.start (x509TimeAdj : Int → Asn1Time)
    : Sound x509TimeAdj [] .start (Heap.empty : Objects) where
  defined := rfl
  accounts := ⟨fun _ => rfl, by simp [Heap.empty]⟩
  issued := by simp
  identities := by simp [Process.start]

/-- Every run keeps the account. -/
theorem runSchedule_sound {actions : List Action} (fits : ∀ action ∈ actions, action.Fits)
    {reached : Process × List Issue}
    (runs : reached ∈ runSchedule (Process.step x509TimeAdj) .start actions)
    : ∃ objects, Sound x509TimeAdj reached.2 reached.1 objects :=
  runSchedule_invariant_allowed Action.Fits
    (fun history process => ∃ objects, Sound x509TimeAdj history process objects)
    (fun _ _ _ _ allowed enabled ⟨_, sound⟩ => sound.step allowed enabled)
    ⟨_, Sound.start x509TimeAdj⟩ fits runs

-----------------------------------------------------------------------------------------
-- Calls that never return
-----------------------------------------------------------------------------------------

/-- All calls succeed. -/
def allSucceed : IdentityAnswers where
  key := ⟨true, true, true, true, true, true, []⟩
  certificate :=
    ⟨true, true, true, true, true, true, true, true, true, true, true, true, true, true, true, []⟩
  randomName := ['x']

end RtcBase.Certificates
