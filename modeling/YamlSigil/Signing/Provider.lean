/-
Signing with keys that a provider holds.

Signing puts one step to somebody else: a callback that is run, or an operation
that is awaited.  The awaited implementation repeats the synchronous one, with an
order of its own.
-/
import YamlSigil.Control.Ask
import YamlSigil.Signing.Bounded
import YamlSigil.Signing.ProviderCrypto

namespace YamlSigil
namespace Signing

open Control YamlSigil.Core
open Pb (EncodeErrorKind)
open Verification (KeyCrypto Octets64)

/-- The resource result, in it the result of the preflight encoding, in it the
outcome. -/
abbrev SignResult := Except ArtifactResourceError (Except EncodeErrorKind SignOutcome)

def SignResult.invocation (e : SignInvocationError) : Run SignResult :=
  some (.ok (.ok (.invocation e)))

def SignResult.signer (e : SignError) : Run SignResult := some (.ok (.ok (.signer e)))

/-- What is framed. -/
def SignResult.framed (r : Run (Except ArtifactResourceError SignOutcome)) : Run SignResult :=
  r.map fun r => r.map .ok

/-- A signing operation that puts payloads, or digests of them, to a provider. -/
abbrev ProviderSigning (A : Type) := Ask Bytes A (Run SignResult)

/-! ## The synchronous operations -/

/-- The key in a request, in either slot. -/
def SignRequest.boundKey {κ : Type} (req : SignRequest κ κ) : κ :=
  match req.key with
  | .ed25519 key | .ecdsaP256Sha256 key => key

section
variable (C : KeyCrypto) {κ : Type} [BoundKey C κ] {Q A : Type}

/-- The public key of a bound key. -/
def publicKeyOf (key : κ) : ProviderPublicKey C := BoundKey.publicKey key

/-- `try_sign` of a bound key: the output of the callback is checked. -/
def trySign (key : κ) (message : Bytes) (callback : Bytes → Ask Q A (Except SignError Octets64)) :
    Ask Q A (Except SignError Octets64) :=
  (callback message).andThen fun
    | .error e => .done (.error e)
    | .ok signature =>
      if !providerSignatureIsStructurallyValid C (publicKeyOf C key).algorithm signature ||
          (BoundKey.selfVerify C κ && !verifyProviderSignature (publicKeyOf C key) message signature)
      then .done (.error .keyOperationFailure)
      else .done (.ok signature)

/-- Changes only what the callback is given. -/
def p256DigestCallback (sha256 : Bytes → Bytes)
    (callback : Bytes → Ask Q A (Except SignError Octets64)) (payload : Bytes) :
    Ask Q A (Except SignError Octets64) :=
  callback (sha256 payload)

variable (K : Backend)

/-- `sign_after_invocation_validation` around a step that asks. -/
def signAfterInvocationValidationAsking (req : SignRequest κ κ)
    (limits : Option ArtifactResourceLimits)
    (signPayload : Bytes → Ask Q A (Except SignError Octets64)) :
    Ask Q A (Run (Except ArtifactResourceError SignOutcome)) :=
  match prepareSigningPayload req with
  | .error e => .done (some (.ok (.signer e)))
  | .ok prepared =>
    (signPayload prepared.payload).andThen fun
      | .error e => .done (some (.ok (.signer e)))
      | .ok signature => .done (finishSigning K req prepared signature limits)

/-- Bounded operations look at the content of the key identifier behind the size,
unbounded ones in front of the key. -/
def signWithProviderInner (req : SignRequest κ κ) (limits : Option ArtifactResourceLimits)
    (requiredAlgorithm : Option AlgorithmId)
    (callback : Bytes → Ask Q A (Except SignError Octets64)) : Ask Q A (Run SignResult) :=
  let validation := if limits.isSome then validateInvocationShape req else validateInvocation req
  match validation with
  | .error e => .done (SignResult.invocation e)
  | .ok () =>
    let key := req.boundKey
    if (publicKeyOf C key).algorithm ≠ req.algorithm ∨ requiredAlgorithm.any (· != req.algorithm)
    then .done (SignResult.invocation .invalidOrUnsupportedAlgorithm)
    else
      let sign := fun limits =>
        (signAfterInvocationValidationAsking K req limits fun payload =>
          trySign C key payload callback).andThen fun r => .done (SignResult.framed r)
      match limits with
      | none => sign none
      | some limits =>
        match preflightSigningOutput K.buffa req limits with
        | .error e => .done (some (.error e))
        | .ok (.error e) => .done (some (.ok (.error e)))
        | .ok (.ok _) =>
          match validateKeyidContent req with
          | .error e => .done (SignResult.invocation e)
          | .ok () => sign (some limits)

/-- `expect` on the results an unbounded operation cannot have. -/
def expectUnbounded (r : Run SignResult) : Run SignOutcome := do
  let r ← r
  let r ← expectOk r
  expectOk r

def signWithProvider (req : SignRequest κ κ)
    (callback : Bytes → Ask Q A (Except SignError Octets64)) : Ask Q A (Run SignOutcome) :=
  (signWithProviderInner C K req none none callback).andThen fun r => .done (expectUnbounded r)

def signWithProviderAndResourceLimits (req : SignRequest κ κ) (limits : ArtifactResourceLimits)
    (callback : Bytes → Ask Q A (Except SignError Octets64)) : Ask Q A (Run SignResult) :=
  signWithProviderInner C K req (some limits) none callback

def signWithP256DigestProvider (sha256 : Bytes → Bytes) (req : SignRequest κ κ)
    (callback : Bytes → Ask Q A (Except SignError Octets64)) : Ask Q A (Run SignOutcome) :=
  (signWithProviderInner C K req none (some .ecdsaP256Sha256)
    (p256DigestCallback sha256 callback)).andThen fun r => .done (expectUnbounded r)

def signWithP256DigestProviderAndResourceLimits (sha256 : Bytes → Bytes) (req : SignRequest κ κ)
    (limits : ArtifactResourceLimits)
    (callback : Bytes → Ask Q A (Except SignError Octets64)) : Ask Q A (Run SignResult) :=
  signWithProviderInner C K req (some limits) (some .ecdsaP256Sha256)
    (p256DigestCallback sha256 callback)

end

/-! ## The awaited operations

The error of a provider carries nothing. -/

namespace Awaited

section
variable (C : KeyCrypto) {κ : Type} [BoundKey C κ] (K : Backend)

/-- The rest of `sign_inner`, from the preparation on. -/
def signPrepared (req : SignRequest κ κ) (limits : Option ArtifactResourceLimits) :
    ProviderSigning (Option Octets64) :=
  match prepareSigningPayload req with
  | .error e => .done (SignResult.signer e)
  | .ok prepared => .ask prepared.payload fun
    | none => .done (SignResult.signer .keyOperationFailure)
    | some signature =>
      if !providerSignatureIsStructurallyValid C req.algorithm signature ||
          (BoundKey.selfVerify C κ &&
            !verifyProviderSignature (publicKeyOf C req.boundKey) prepared.payload signature)
      then .done (SignResult.signer .keyOperationFailure)
      else .done (SignResult.framed (finishSigning K req prepared signature limits))

def signInner (req : SignRequest κ κ) (limits : Option ArtifactResourceLimits) :
    ProviderSigning (Option Octets64) :=
  let validation := if limits.isSome then validateInvocationShape req else validateInvocation req
  match validation with
  | .error e => .done (SignResult.invocation e)
  | .ok () =>
    let key := req.boundKey
    if (publicKeyOf C key).algorithm ≠ req.algorithm then
      .done (SignResult.invocation .invalidOrUnsupportedAlgorithm)
    else
      match limits with
      | none => signPrepared C K req none
      | some limits =>
        match preflightSigningOutput K.buffa req limits with
        | .error e => .done (some (.error e))
        | .ok (.error e) => .done (some (.ok (.error e)))
        | .ok (.ok _) =>
          match validateKeyidContent req with
          | .error e => .done (SignResult.invocation e)
          | .ok () => signPrepared C K req (some limits)

def signWithAsyncProvider (req : SignRequest κ κ) : Ask Bytes (Option Octets64) (Run SignOutcome) :=
  (signInner C K req none).andThen fun r => .done (expectUnbounded r)

def signWithAsyncProviderAndResourceLimits (req : SignRequest κ κ)
    (limits : ArtifactResourceLimits) : ProviderSigning (Option Octets64) :=
  signInner C K req (some limits)

end

end Awaited

end Signing
end YamlSigil
