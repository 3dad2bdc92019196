import RtcBase.Certificates.Ownership
import RtcBase.Library.Clock

/-! When certificates expire: from the lifetime that is asked for, through the `ASN1_TIME` that OpenSSL
writes into the certificate, back to the milliseconds of `RTCCertificate::expires`.
-/

namespace RtcBase.Certificates

open Library
open TimeUtils

/-- The first second of the year 10000, which no `ASN1_TIME` has. -/
def endOfTime : Int := 253402300800

/-- What `X509_time_adj` is documented to do with a time from 1970 on: the date and the time of day in
UTC are written as `UTCTime` up to the year 2049 and as `GeneralizedTime` from then on.
-/
def Encodes (x509TimeAdj : Int → Asn1Time) : Prop :=
  ∀ time, 0 ≤ time → time < endOfTime →
    ∃ d : DateTime,
      (d.secondsSince 1970 : Int) = time
      ∧ 1970 ≤ d.year
      ∧ Asn1Denotes (text (x509TimeAdj time).data (x509TimeAdj time).length.toNat)
          (2050 ≤ d.year) d
      ∧ (x509TimeAdj time).type = if 2050 ≤ d.year then .generalizedTime else .utcTime

-----------------------------------------------------------------------------------------
-- Reading the time
-----------------------------------------------------------------------------------------

/-- The text of a moment from 1970 on is read as its seconds. -/
theorem value_of_denotes {s : Nat → Byte} {length : BitVec 64} {longFormat : Bool} {d : DateTime}
    (denotes : Asn1Denotes (text s length.toNat) longFormat d) (since : 1970 ≤ d.year)
    : (asn1TimeToSec s length longFormat).value = some (d.secondsSince 1970 : Int) := by
  have whole := denotes.length
  rw [length_text] at whole
  obtain ⟨fields, year, mday⟩ := fieldsOfText_spec denotes.shape whole
  rw [asn1TimeToSec_value_of_shape denotes.shape, if_pos whole]
  exact tmToSeconds_of_denotes year mday ((fields d).mpr denotes) since

/-- A certificate's expiration time is read as it was written. -/
theorem certificateExpirationTime_eq {x509TimeAdj : Int → Asn1Time} (encodes : Encodes x509TimeAdj)
    {fields : X509} {time : Int} (written : fields.notAfter = x509TimeAdj time) (since : 0 ≤ time)
    (before : time < endOfTime)
    : fields.certificateExpirationTime = some time := by
  obtain ⟨d, seconds, year, denotes, type⟩ := encodes time since before
  rw [X509.certificateExpirationTime, written, type]
  by_cases long : 2050 ≤ d.year
  · rw [decide_eq_true long] at denotes
    rw [if_pos long]
    exact (value_of_denotes denotes year).trans (congrArg some seconds)
  · rw [decide_eq_false long] at denotes
    rw [if_neg long]
    exact (value_of_denotes denotes year).trans (congrArg some seconds)

/-- The milliseconds of a time before the end fit. -/
theorem toNat_milliseconds {time : Int} (since : 0 ≤ time) (before : time < endOfTime)
    : (BitVec.ofInt 64 time * 1000).toNat = (time * 1000).toNat := by
  obtain ⟨n, rfl⟩ := Int.eq_ofNat_of_zero_le since
  have small : n < 253402300800 := by
    rw [endOfTime] at before
    omega
  rw [BitVec.ofInt_natCast, BitVec.toNat_mul, BitVec.toNat_ofNat,
    show (1000 : BitVec 64).toNat = 1000 from rfl]
  omega

-----------------------------------------------------------------------------------------
-- Runs
-----------------------------------------------------------------------------------------

/-- An action asks for a certificate at a time and for a lifetime. -/
def Action.Asks (action : Action) (now lifetime : Int) : Prop :=
  match action with
  | .generateWithExpiration _ _ certificateLifetime time _ =>
      now = time ∧ lifetime = certificateLifetime ∧ kCertificateWindowInSeconds ≤ lifetime
  | .generateCertificate keyParams expiresMs time _ =>
      now = time ∧ lifetime = certificateLifetime expiresMs ∧ keyParams.isValid = true
  | _ => False

/-- What is issued comes from an identity that was made. -/
theorem eq_of_mem_issues {outcome : Option (Result Identity × Objects)} {now lifetime : Int}
    {issue : Issue} (member : issue ∈ issues outcome now lifetime)
    : issue.now = now ∧ issue.lifetime = lifetime
      ∧ ∃ identity objects, outcome = some (.made identity, objects) := by
  obtain ⟨x509, found, rfl⟩ := List.mem_map.mp member
  obtain ⟨identity, made, -⟩ := Option.bind_eq_some_iff.mp (Option.mem_toList.mp found)
  obtain ⟨⟨result, objects⟩, rfl, equal⟩ := Option.bind_eq_some_iff.mp made
  cases result with
  | made value => exact ⟨rfl, rfl, value, objects, rfl⟩
  | failed => cases equal
  | hangs kept => cases equal

/-- What an action issues it was asked for. -/
theorem step_asks {x509TimeAdj : Int → Asn1Time} {process : Process} {action : Action}
    {next : Process × List Issue} (enabled : next ∈ process.step x509TimeAdj action)
    {issue : Issue} (member : issue ∈ next.2)
    : action.Asks issue.now issue.lifetime := by
  obtain ⟨objects, -, enabled⟩ := Option.bind_eq_some_iff.mp enabled
  cases action with
  | generateWithExpiration commonName keyParams lifetime now answers =>
      obtain rfl := Option.some.inj enabled
      obtain ⟨sameNow, sameLifetime, identity, later, made⟩ := eq_of_mem_issues member
      refine ⟨sameNow, sameLifetime, ?_⟩
      simp only [generateWithExpiration] at made
      split_ifs at made with ended
      · cases made
      · omega
  | generateCertificate keyParams expiresMs now answers =>
      obtain rfl := Option.some.inj enabled
      obtain ⟨sameNow, sameLifetime, identity, later, made⟩ := eq_of_mem_issues member
      refine ⟨sameNow, sameLifetime, ?_⟩
      simp only [generateCertificate] at made
      split_ifs at made with invalid
      · cases made
      · simpa using invalid
  | getReference place =>
      obtain ⟨holder, -, outcome, -, equal⟩ := by
        simpa [Option.bind_eq_some_iff] using enabled
      subst equal
      cases member
  | chainOf places =>
      obtain ⟨certs, -, equal⟩ := by
        simpa [Option.bind_eq_some_iff] using enabled
      subst equal
      cases member
  | setupContext place answers =>
      dsimp only at enabled
      split at enabled
      next =>
        obtain rfl := Option.some.inj enabled
        cases member
      next => cases enabled
  | receive fields =>
      obtain rfl := Option.some.inj enabled
      cases member
  | keepPeerCertificate place =>
      dsimp only at enabled
      split at enabled
      next =>
        obtain rfl := Option.some.inj enabled
        cases member
      next => cases enabled
  | destroy place =>
      dsimp only at enabled
      split at enabled
      next => cases enabled
      next => cases enabled
      next =>
        obtain rfl := Option.some.inj enabled
        cases member

/-- Every certificate of a run was asked for. -/
theorem runSchedule_asks {x509TimeAdj : Int → Asn1Time} {actions : List Action}
    {reached : Process × List Issue}
    (runs : reached ∈ runSchedule (Process.step x509TimeAdj) .start actions)
    : ∀ issue ∈ reached.2, ∃ action ∈ actions, action.Asks issue.now issue.lifetime := by
  refine runSchedule_invariant_allowed (· ∈ actions)
    (fun history _ => ∀ issue ∈ history, ∃ action ∈ actions,
      action.Asks issue.now issue.lifetime)
    ?_ (by simp) (fun _ member => member) runs
  intro history process action next allowed enabled holds issue member
  rcases List.mem_append.mp member with old | new
  · exact holds issue old
  · exact ⟨action, allowed, step_asks enabled new⟩

/-- In every run, every identity that exists, generated or a reference to one, has a certificate that
was asked for at a time and for a lifetime; and while that ends between 1970 and the year 10000, on
either side of the change of formats in 2050, `expires` is the millisecond of the time plus the
lifetime, and `has_expired` is true from that millisecond on.
-/
theorem certificates_expire_on_time {x509TimeAdj : Int → Asn1Time} (encodes : Encodes x509TimeAdj)
    {actions : List Action} (fits : ∀ action ∈ actions, action.Fits)
    {reached : Process × List Issue}
    (runs : reached ∈ runSchedule (Process.step x509TimeAdj) .start actions)
    : ∃ objects,
        reached.1.objects = some objects
        ∧ ∀ own, .identity own ∈ reached.1.holders →
            ∃ issue ∈ reached.2,
              own.certChain.head? = some issue.x509
              ∧ (∃ action ∈ actions, action.Asks issue.now issue.lifetime)
              ∧ (0 ≤ issue.now + issue.lifetime → issue.now + issue.lifetime < endOfTime →
                  ∃ expires,
                    RTCCertificate.expires objects own = some expires
                    ∧ (expires.toNat : Int) = (issue.now + issue.lifetime) * 1000
                    ∧ ∀ now : BitVec 64,
                        RTCCertificate.hasExpired objects own now
                        = some (decide ((issue.now + issue.lifetime) * 1000 ≤ now.toNat))) := by
  obtain ⟨objects, sound⟩ := runSchedule_sound fits runs
  refine ⟨objects, sound.defined, ?_⟩
  intro own member
  obtain ⟨issue, known, first⟩ := sound.identities own member
  refine ⟨issue, known, first, runSchedule_asks runs issue known, ?_⟩
  intro since before
  have held : issue.x509 ∈ reached.1.references := by
    refine List.mem_flatMap.mpr ⟨_, member, ?_⟩
    simp [Holder.references, List.mem_of_head? first]
  obtain ⟨object, live, -⟩ := sound.accounts.live held
  have content : objects.content issue.x509 = some object.content := by
    simp [CountedHeap.content, live]
  obtain ⟨fields, isX509, written⟩ := (sound.issued issue known).2 _ content
  have reads := certificateExpirationTime_eq encodes written since before
  have expires
      : RTCCertificate.expires objects own
        = some (BitVec.ofInt 64 (issue.now + issue.lifetime) * 1000) := by
    have notNegative : issue.now + issue.lifetime ≠ -1 := by omega
    simp [RTCCertificate.expires, first, content, isX509, reads, notNegative]
  have value := toNat_milliseconds since before
  refine ⟨_, expires, ?_, ?_⟩
  · rw [value]
    omega
  · intro now
    rw [RTCCertificate.hasExpired, expires, Option.map_some]
    congr 1
    rw [decide_eq_decide, BitVec.le_def, value]
    omega

-----------------------------------------------------------------------------------------
-- Writing the time
-----------------------------------------------------------------------------------------

/-- A number below 100 in two digits. -/
def twoDigits (n : Nat) : List Byte :=
  [BitVec.ofNat 8 (48 + n / 10 % 10), BitVec.ofNat 8 (48 + n % 10)]

/-- The text of a moment. -/
def asn1Text (longFormat : Bool) (d : DateTime) : List Byte :=
  (if longFormat then twoDigits (d.year / 100) else []) ++ twoDigits (d.year % 100)
    ++ twoDigits d.month ++ twoDigits d.day ++ twoDigits d.hour ++ twoDigits d.minute
    ++ twoDigits d.second ++ [ascii 'Z']

/-- A function like `X509_time_adj`. -/
def x509TimeOf (time : Int) : Asn1Time :=
  let d := DateTime.ofSeconds 1970 time.toNat
  ⟨if 2050 ≤ d.year then .generalizedTime else .utcTime,
    fun i => (asn1Text (2050 ≤ d.year) d).getD i 0#8,
    BitVec.ofNat 64 (asn1Text (2050 ≤ d.year) d).length⟩

theorem toNat_digit (n : Nat) : (BitVec.ofNat 8 (48 + n % 10)).toNat = 48 + n % 10 := by
  rw [BitVec.toNat_ofNat]
  omega

theorem isDigit_twoDigits (n : Nat) : ∀ b ∈ twoDigits n, IsDigit b := by
  have digit (k : Nat) : IsDigit (BitVec.ofNat 8 (48 + k % 10)) := by
    constructor
    · rw [BitVec.le_def, toNat_digit]
      exact Nat.le_add_right 48 _
    · rw [BitVec.le_def, toNat_digit]
      change _ ≤ 57
      omega
  exact List.forall_mem_cons.mpr ⟨digit _, List.forall_mem_singleton.mpr (digit _)⟩

theorem decimal_twoDigits {n : Nat} (small : n < 100) : decimal (twoDigits n) = n := by
  simp only [decimal, twoDigits, List.foldl_cons, List.foldl_nil, toNat_digit]
  omega

theorem decimal_fourDigits {n : Nat} (small : n < 10000)
    : decimal (twoDigits (n / 100) ++ twoDigits (n % 100)) = n := by
  simp only [decimal, twoDigits, List.foldl_append, List.foldl_cons, List.foldl_nil, toNat_digit]
  omega

/-- The text of a moment denotes it. -/
theorem asn1Text_denotes {d : DateTime} {longFormat : Bool} (since : 1970 ≤ d.year)
    (before : d.year < 10000) (format : longFormat = decide (2050 ≤ d.year))
    : Asn1Denotes (asn1Text longFormat d) longFormat d := by
  have months := d.month_le
  have days : d.day ≤ 31 := by
    refine d.day_le.trans ?_
    rw [monthLength.eq_def]
    split <;> (try split) <;> omega
  have hours := d.hour_lt
  have minutes := d.minute_lt
  have seconds := d.second_lt
  refine ⟨⟨(if longFormat then twoDigits (d.year / 100) else []) ++ twoDigits (d.year % 100)
    ++ twoDigits d.month ++ twoDigits d.day ++ twoDigits d.hour ++ twoDigits d.minute
    ++ twoDigits d.second, rfl, ?_⟩, ?_, ?_, ?_, ?_, ?_, ?_, ?_⟩
  · intro b member
    simp only [List.mem_append] at member
    rcases member with (((((member | member) | member) | member) | member) | member) | member
    · split at member
      · exact isDigit_twoDigits _ b member
      · cases member
    all_goals exact isDigit_twoDigits _ b member
  · cases longFormat <;> rfl
  · cases longFormat with
    | true => exact (decimal_fourDigits before).symm
    | false =>
        have early := of_decide_eq_false format.symm
        have year : decimal (window (asn1Text false d) 0 2) = d.year % 100 :=
          decimal_twoDigits (Nat.mod_lt _ (by decide))
        simp only [yearDigits, Bool.false_eq_true, if_false, year, fullYear]
        split <;> omega
  · cases longFormat <;> exact (decimal_twoDigits (by omega)).symm
  · cases longFormat <;> exact (decimal_twoDigits (by omega)).symm
  · cases longFormat <;> exact (decimal_twoDigits (by omega)).symm
  · cases longFormat <;> exact (decimal_twoDigits (by omega)).symm
  · cases longFormat <;> exact (decimal_twoDigits (by omega)).symm

/-- A moment before the end is in a year of four digits. -/
theorem year_lt_of_lt_endOfTime {time : Nat} (before : (time : Int) < endOfTime)
    : (DateTime.ofSeconds 1970 time).year < 10000 := by
  by_contra late
  have seconds := DateTime.secondsSince_ofSeconds 1970 time
  have since := DateTime.le_year_ofSeconds 1970 time
  have years := daysBeforeYear_eq (by decide) since
  rw [show leapYearsBefore 1970 = 477 from rfl, leapYearsBefore] at years
  rw [endOfTime] at before
  rw [DateTime.secondsSince, DateTime.daysSince] at seconds
  omega

/-- Memory that holds a list. -/
theorem text_getD (bytes : List Byte) : text (fun i => bytes.getD i 0#8) bytes.length = bytes := by
  refine List.ext_getElem (length_text _ _) ?_
  intro i _ inside
  simp [text, inside]

/-- The function writes the times as documented. -/
theorem x509TimeOf_encodes : Encodes x509TimeOf := by
  intro time since before
  obtain ⟨n, rfl⟩ := Int.eq_ofNat_of_zero_le since
  have year := DateTime.le_year_ofSeconds 1970 n
  have most := year_lt_of_lt_endOfTime before
  refine ⟨DateTime.ofSeconds 1970 n, ?_, year, ?_, rfl⟩
  · rw [DateTime.secondsSince_ofSeconds]
  · have denotes := asn1Text_denotes year most rfl
    have fits : (asn1Text (2050 ≤ (DateTime.ofSeconds 1970 n).year)
        (DateTime.ofSeconds 1970 n)).length < 2 ^ 64 := by
      rw [denotes.length]
      cases decide (2050 ≤ (DateTime.ofSeconds 1970 n).year) <;> decide
    simp only [x509TimeOf, BitVec.toNat_ofNat]
    rw [show ((n : Nat) : Int).toNat = n from rfl, Nat.mod_eq_of_lt fits, text_getD]
    exact denotes

/-- A certificate is asked for that expires in 2050, and its identity is copied. -/
def generateAndCopy : List Action :=
  [.generateCertificate (.ecdsa .nistP256) 31536000000 2500000000 allSucceed, .getReference 0,
    .destroy 0]

/-- Witness: the copy expires a year after the certificate was asked for. -/
theorem certificates_expire_on_time_generateAndCopy
    : ∃ reached ∈ runSchedule (Process.step x509TimeOf) .start generateAndCopy,
        ∃ objects,
          reached.1.objects = some objects
          ∧ ∃ own, reached.1.holders = [.identity own]
            ∧ ∃ expires, RTCCertificate.expires objects own = some expires
              ∧ (expires.toNat : Int) = 2531536000000 := by
  obtain ⟨reached, runs⟩ := Option.isSome_iff_exists.mp
    (show (runSchedule (Process.step x509TimeOf) .start generateAndCopy).isSome = true by decide)
  have observed
      : (runSchedule (Process.step x509TimeOf) .start generateAndCopy).map
          (fun reached => (reached.1.holders, reached.2))
        = some ([.identity ⟨0, [2]⟩], [⟨2, 2500000000, 31536000⟩]) := by decide
  rw [runs] at observed
  obtain ⟨holders, history⟩
      : reached.1.holders = [.identity ⟨0, [2]⟩] ∧ reached.2 = [⟨2, 2500000000, 31536000⟩] := by
    simpa using observed
  obtain ⟨objects, defined, identities⟩ :=
    certificates_expire_on_time x509TimeOf_encodes
      (by simp [generateAndCopy, Action.Fits, KeyAnswers.Fit, allSucceed]) runs
  obtain ⟨issue, member, -, -, onTime⟩ := identities ⟨0, [2]⟩ (by simp [holders])
  obtain rfl : issue = ⟨2, 2500000000, 31536000⟩ := by simpa [history] using member
  obtain ⟨expires, found, value, -⟩ := onTime (by decide) (by decide)
  exact ⟨reached, runs, objects, defined, ⟨0, [2]⟩, holders, expires, found, value⟩

end RtcBase.Certificates
