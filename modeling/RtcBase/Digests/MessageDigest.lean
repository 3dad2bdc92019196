import RtcBase.Digests.Md5
import RtcBase.Digests.Sha1

/-! Digest objects and the functions that use them. A `MessageDigest` keeps its context from call to
call; `finish` resets it, unless the caller's buffer is too small. Buffers are their memory, whose
length is the length that the caller gives.
-/

namespace RtcBase.Digests

open Library

-----------------------------------------------------------------------------------------
-- Digest objects
-----------------------------------------------------------------------------------------

/-- What a call on a digest object returns and leaves behind: the caller's buffer and the context. -/
structure Finished (Context : Type) where
  returned : Nat
  output : List Byte
  ctx : Context

/-- A class derived from `MessageDigest`: its context, which the constructor initialises, and its
methods. `none` is an access outside of memory.
-/
structure MessageDigest where
  Context : Type
  construct : Context → Context
  size : Nat
  update : Context → List Byte → Option Context
  finish : Context → List Byte → Option (Finished Context)

/-- The body of `Md5Digest::finish` and `Sha1Digest::finish`, with the functions for their context. -/
def finishWith {Context : Type} (kSize : Nat) (final : Context → Option (Context × List Byte))
    (init : Context → Context) (ctx : Context) (buf : List Byte)
    : Option (Finished Context) :=
  if buf.length < kSize then some ⟨0, buf, ctx⟩
  else do
    let (ctx, digest) ← final ctx
    let buf ← writeMemory buf 0 digest
    return ⟨kSize, buf, init ctx⟩

def md5Digest : MessageDigest where
  Context := Md5.Context
  construct := Md5.Context.init
  size := 16
  update := Md5.Context.update
  finish := finishWith 16 Md5.Context.final Md5.Context.init

def sha1Digest : MessageDigest where
  Context := Sha1.Context
  construct := Sha1.Context.init
  size := 20
  update := Sha1.Context.update
  finish := finishWith 20 Sha1.Context.final Sha1.Context.init

/-- `k_block_size`. -/
def kBlockSize : Nat := 64

/-- `compute_digest`. -/
def computeDigest (digest : MessageDigest) (ctx : digest.Context) (input output : List Byte)
    : Option (Finished digest.Context) := do
  let ctx ← digest.update ctx input
  digest.finish ctx output

/-- The memory that `new uint8_t[size]` returns for `new_key` and `inner`, with any contents. -/
structure NewMemory where
  newKey : Nat → List Byte
  inner : Nat → List Byte
  length_newKey : ∀ size, (newKey size).length = size
  length_inner : ∀ size, (inner size).length = size

/-- The key in a block, as `compute_hmac` prepares it in `new_key`. -/
def prepareKey (digest : MessageDigest) (memory : NewMemory) (ctx : digest.Context)
    (key : List Byte)
    : Option (List Byte × digest.Context) :=
  if key.length > kBlockSize then do
    let hashed ← computeDigest digest ctx key (memory.newKey kBlockSize)
    let newKey ← writeMemory hashed.output digest.size
      (List.replicate (kBlockSize - digest.size) 0)
    return (newKey, hashed.ctx)
  else do
    let copied ← writeMemory (memory.newKey kBlockSize) 0 key
    let newKey ← writeMemory copied key.length (List.replicate (kBlockSize - key.length) 0)
    return (newKey, ctx)

/-- `compute_hmac` on a digest object. -/
def computeHmac (digest : MessageDigest) (memory : NewMemory) (ctx : digest.Context)
    (key input output : List Byte)
    : Option (Finished digest.Context) :=
  if digest.size > 32 then some ⟨0, output, ctx⟩
  else do
    let (newKey, ctx) ← prepareKey digest memory ctx key
    let oPad := newKey.map (0x5c ^^^ ·)
    let iPad := newKey.map (0x36 ^^^ ·)
    let ctx ← digest.update ctx iPad
    let ctx ← digest.update ctx input
    let inner ← digest.finish ctx (memory.inner digest.size)
    let ctx ← digest.update inner.ctx oPad
    let ctx ← digest.update ctx inner.output
    digest.finish ctx output

/-- A call with its buffers; `output` is the caller's buffer before the call. -/
inductive DigestCall where
  | digest (input output : List Byte)
  | hmac (memory : NewMemory) (key input output : List Byte)

/-- The caller's buffer. -/
def DigestCall.output : DigestCall → List Byte
  | .digest _ output => output
  | .hmac _ _ _ output => output

def DigestCall.perform (digest : MessageDigest) (ctx : digest.Context)
    : DigestCall → Option (Finished digest.Context)
  | .digest input output => computeDigest digest ctx input output
  | .hmac memory key input output => computeHmac digest memory ctx key input output

/-- The calls on one object in turn: what each returns, with the caller's buffer as it leaves it. -/
def performAll (digest : MessageDigest)
    : digest.Context → List DigestCall → Option (List (Nat × List Byte))
  | _, [] => some []
  | ctx, call :: rest => do
      let finished ← call.perform digest ctx
      let results ← performAll digest finished.ctx rest
      return (finished.returned, finished.output) :: results

end RtcBase.Digests
