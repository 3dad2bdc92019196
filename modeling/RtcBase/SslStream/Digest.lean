import Mathlib.Data.List.Basic

/-! Digest algorithms of the peer certificate check: the names that `OpenSSLDigest`
recognises, their sizes, and the digest of a certificate as `OpenSSLCertificate` computes it.
-/

namespace RtcBase.SslStream

/-- The message digests that `OpenSSLDigest::get_digest_EVP` can select. -/
inductive EvpMd where
  | md5
  | sha1
  | sha224
  | sha256
  | sha384
  | sha512
  deriving DecidableEq, Repr

/-- `EVP_MD_size` in bytes. -/
def EvpMd.size : EvpMd → Nat
  | .md5 => 16
  | .sha1 => 20
  | .sha224 => 28
  | .sha256 => 32
  | .sha384 => 48
  | .sha512 => 64

/-- `EVP_MAX_MD_SIZE`, the size of the stack buffer that receives a digest. -/
def evpMaxMdSize : Nat := 64

/-- `OpenSSLDigest::get_digest_EVP`: look a digest up by its name. -/
def getDigestEVP (algorithm : String) : Option EvpMd :=
  if algorithm = "md5" then some .md5
  else if algorithm = "sha-1" then some .sha1
  else if algorithm = "sha-224" then some .sha224
  else if algorithm = "sha-256" then some .sha256
  else if algorithm = "sha-384" then some .sha384
  else if algorithm = "sha-512" then some .sha512
  else none

/-- `OpenSSLDigest::get_digest_size`. -/
def getDigestSize (algorithm : String) : Option Nat :=
  (getDigestEVP algorithm).map EvpMd.size

/-- `OpenSSLCertificate::compute_digest` into a buffer of `size` bytes. The hash itself is
`x509Digest`, OpenSSL's `X509_digest`.
-/
def computeDigest {Cert : Type} (x509Digest : Cert → EvpMd → List UInt8) (x509 : Cert)
    (algorithm : String) (size : Nat)
    : Option (List UInt8) :=
  match getDigestEVP algorithm with
  | none => none
  | some md => if size < md.size then none else some (x509Digest x509 md)

/-- The empty name selects no digest, so an algorithm with a size is a non-empty name. -/
theorem getDigestSize_ne_empty {algorithm : String} {length : Nat}
    (found : getDigestSize algorithm = some length)
    : algorithm ≠ "" := by
  rintro rfl
  simp [getDigestSize, getDigestEVP] at found

/-- No known digest is empty, by inspecting the six sizes. -/
theorem getDigestSize_pos {algorithm : String} {length : Nat}
    (found : getDigestSize algorithm = some length)
    : 0 < length := by
  obtain ⟨md, -, rfl⟩ := Option.map_eq_some_iff.mp found
  cases md <;> simp [EvpMd.size]

/-- Two certificates whose digests differ in every byte. -/
def twoCertificates (cert : Bool) (md : EvpMd) : List UInt8 :=
  List.replicate md.size (if cert then 1 else 0)

end RtcBase.SslStream
