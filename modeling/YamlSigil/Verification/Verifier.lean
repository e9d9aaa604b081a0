/-
The verifier: pre-verification of the two forms, and the signature check.

Both forms take the artifact apart, read the signature metadata from the carrier
and hand payload and signature octets to one check.  The checks stand in the
source's order, which decides the state when several of them fail.
-/
import YamlSigil.Core.Resource
import YamlSigil.Core.SignatureDoc
import YamlSigil.Transcription.Transcriber
import YamlSigil.Verification.Crypto

namespace YamlSigil
namespace Verification

open YamlSigil.Core Transcription
open Pb (OuterConformance)

/-! ## Requests and answers -/

inductive ArtifactForm where
  | yaml
  | proto
deriving Repr, DecidableEq

inductive InvocationError where
  | invalidOrUnsupportedForm
  | invalidAlgorithmParameters
  | invalidPreVerifyResult
  | keyResolutionFailure
deriving Repr, DecidableEq

inductive VerifierState where
  | verified (payload : Bytes) (algorithm : AlgorithmId)
  | unsigned
  | malformedAttemptedSigned
  | signedButAlgorithmUnsupported (algorithm : AlgorithmId)
  | signedButFailedVerification
deriving Repr, DecidableEq

/-- The payload a state hands to the caller. -/
def VerifierState.payload? : VerifierState → Option Bytes
  | .verified payload _ => some payload
  | .unsigned | .malformedAttemptedSigned | .signedButAlgorithmUnsupported _
  | .signedButFailedVerification => none

structure VerifierOptions where
  verifyEd25519 : Bool
  verifyEcdsaP256Sha256 : Bool
  algorithmParameters : Bytes
deriving Repr, DecidableEq

/-- One key slot for each algorithm. -/
structure PublicKeys (Ed25519 P256 : Type) where
  ed25519 : Option Ed25519
  p256 : Option P256

/-- The one key of the stand-in libraries. -/
def Reference.publicKeys :
    PublicKeys Reference.crypto.Ed25519VerifyingKey Reference.crypto.P256VerifyingKey where
  ed25519 := some ()
  p256 := none

inductive PreVerifyOutcome where
  | ok
  | unsigned
  | structuralFailure
  | metadataParseFailure
deriving Repr, DecidableEq

structure UnverifiedSignature where
  algorithm : AlgorithmId
  keyid : Option Text
  signatureOctets : Bytes
deriving Repr, DecidableEq

structure PreVerifyResponse where
  outcome : PreVerifyOutcome
  form : ArtifactForm
  unverifiedPayloadBytes : Option Bytes
  unverifiedSignature : Option UnverifiedSignature
  parserObservations : List Text
deriving Repr, DecidableEq

structure VerifyResult where
  state : VerifierState
  parserObservations : List Text
deriving Repr, DecidableEq

/-- The supported forms of `verifier_capabilities`. -/
def supportedForms : List ArtifactForm := [.yaml, .proto]

/-! ## Metadata -/

/-- 1 to 1024 octets without CR or LF. -/
def keyidIsValid (keyid : Text) : Bool :=
  let len := (asBytes keyid).length
  1 ≤ len && len ≤ 1024 && !keyid.contains '\r' && !keyid.contains '\n'

section
variable (K : Backend)

def extractYamlMetadata (carrier : Bytes) : Except PreVerifyOutcome UnverifiedSignature :=
  match parseSignatureDocument K carrier with
  | .error _ => .error .metadataParseFailure
  | .ok doc =>
    match doc.validateSchema with
    | .error _ => .error .metadataParseFailure
    | .ok () =>
      match AlgorithmId.fromYamlStr doc.alg with
      | none => .error .metadataParseFailure
      | some alg =>
        if doc.keyid.any fun keyid => !keyidIsValid keyid then .error .metadataParseFailure
        else
          match K.base64.decode doc.signature with
          | none => .error .metadataParseFailure
          | some octets => .ok { algorithm := alg, keyid := doc.keyid, signatureOctets := octets }

def extractProtoMetadata (carrier : Bytes) : Except PreVerifyOutcome UnverifiedSignature :=
  match viewSignatureCarrier K.buffa carrier with
  | .error _ => .error .metadataParseFailure
  | .ok inner =>
    if inner.algWire ≤ 0 then .error .metadataParseFailure
    else
      match AlgorithmId.fromI32 inner.algWire with
      | none => .error .metadataParseFailure
      | some algorithm =>
        if inner.keyid.any fun keyid => !keyidIsValid keyid then .error .metadataParseFailure
        else .ok { algorithm, keyid := inner.keyid, signatureOctets := inner.signature }

/-! ## Pre-verification -/

def preverifyOutcomeFromDecompose (outcome : DecomposeOutcome) (allowUnsigned : Bool) :
    PreVerifyOutcome :=
  match outcome with
  | .ok => .ok
  | .unsigned => if allowUnsigned then .unsigned else .structuralFailure
  | .malformedAttemptedSigned => .structuralFailure

/-- A response that carries nothing. -/
def PreVerifyResponse.reject (outcome : PreVerifyOutcome) (form : ArtifactForm) :
    PreVerifyResponse where
  outcome := outcome
  form := form
  unverifiedPayloadBytes := none
  unverifiedSignature := none
  parserObservations := []

def preVerifyYaml (artifact : Bytes) (allowUnsigned : Bool) : Run PreVerifyResponse :=
  match decompose ⟨artifact, .yaml, none⟩ with
  | .invocation _ => some (.reject .structuralFailure .yaml)
  | .structural structural =>
    let baseOutcome := preverifyOutcomeFromDecompose structural.outcome allowUnsigned
    if baseOutcome ≠ .ok then some (.reject baseOutcome .yaml)
    else do
      let payload ← expect structural.payload
      let carrier ← expect structural.signatureCarrier
      match validatePayloadStream payload with
      | .error _ => some (.reject .structuralFailure .yaml)
      | .ok () =>
        match extractYamlMetadata K carrier with
        | .ok sig => some {
            outcome := .ok
            form := .yaml
            unverifiedPayloadBytes := some payload
            unverifiedSignature := some sig
            parserObservations := [] }
        | .error o => some (.reject o .yaml)

def defaultOuterConformance : OuterConformance := .signatureStrict

def preVerifyProto (wire : Bytes) : Run PreVerifyResponse :=
  match decompose ⟨wire, .protobuf, some defaultOuterConformance⟩ with
  | .invocation _ => some (.reject .structuralFailure .proto)
  | .structural structural =>
    if structural.outcome ≠ .ok then some (.reject .structuralFailure .proto)
    else do
      let payload ← expect structural.payload
      let carrier ← expect structural.signatureCarrier
      match extractProtoMetadata K carrier with
      | .ok sig => some {
          outcome := .ok
          form := .proto
          unverifiedPayloadBytes := some payload
          unverifiedSignature := some sig
          parserObservations := [] }
      | .error o => some (.reject o .proto)

end

/-! ## The signature check -/

section
variable (C : Crypto) {Ed25519 P256 : Type} [Ed25519VerificationKey Ed25519]
  [P256VerificationKey P256]

def verificationStateFromOutcome (outcome : KeyVerificationOutcome) (payload : Bytes)
    (algorithm : AlgorithmId) : Except InvocationError VerifierState :=
  match outcome with
  | .verified => .ok (.verified payload algorithm)
  | .malformedSignature => .ok .malformedAttemptedSigned
  | .signatureMismatch => .ok .signedButFailedVerification
  | .providerFailure => .error .keyResolutionFailure

inductive PreparedVerification (Ed25519 P256 : Type) where
  | complete (state : VerifierState)
  | ed25519 (key : Ed25519) (signature : Octets64)
  | p256 (key : P256) (signature : Octets64)

def prepareSignatureVerification (wireAlg : Int32) (sigOctets : Bytes)
    (keys : PublicKeys Ed25519 P256) (options : VerifierOptions) :
    Run (Except InvocationError (PreparedVerification Ed25519 P256)) :=
  if wireAlg ≤ 0 then some (.ok (.complete .malformedAttemptedSigned))
  else
    match AlgorithmId.fromI32 wireAlg with
    | none => some (.ok (.complete .malformedAttemptedSigned))
    | some alg =>
      if sigOctets.isEmpty then some (.ok (.complete .malformedAttemptedSigned))
      else if sigOctets.length ≠ 64 then some (.ok (.complete .malformedAttemptedSigned))
      else
        match alg with
        | .ed25519 =>
          if !options.verifyEd25519 then
            some (.ok (.complete (.signedButAlgorithmUnsupported alg)))
          else if !ed25519SignatureIsCanonical C sigOctets then
            some (.ok (.complete .malformedAttemptedSigned))
          else
            match keys.ed25519 with
            | none => some (.error .keyResolutionFailure)
            | some vk =>
              if !Ed25519VerificationKey.isAdmissible vk then some (.error .keyResolutionFailure)
              else do
                let signature ← expect (octets64 sigOctets)
                some (.ok (.ed25519 vk signature))
        | .ecdsaP256Sha256 =>
          if !options.verifyEcdsaP256Sha256 then
            some (.ok (.complete (.signedButAlgorithmUnsupported alg)))
          else
            match keys.p256 with
            | none => some (.error .keyResolutionFailure)
            | some vk =>
              -- here the key comes before the signature form
              if !ecdsaP256SignatureIsWellFormed C sigOctets then
                some (.ok (.complete .malformedAttemptedSigned))
              else if !P256VerificationKey.isAdmissible vk then
                some (.error .keyResolutionFailure)
              else do
                let signature ← expect (octets64 sigOctets)
                some (.ok (.p256 vk signature))

def verifyExtractedSignature (payload : Bytes) (wireAlg : Int32) (sigOctets : Bytes)
    (keys : PublicKeys Ed25519 P256) (options : VerifierOptions) :
    Run (Except InvocationError VerifierState) := do
  match ← prepareSignatureVerification C wireAlg sigOctets keys options with
  | .error e => some (.error e)
  | .ok (.complete state) => some (.ok state)
  | .ok (.ed25519 key signature) =>
    some (verificationStateFromOutcome
      (Ed25519VerificationKey.verifySignature key payload signature)
      payload .ed25519)
  | .ok (.p256 key signature) =>
    some (verificationStateFromOutcome (P256VerificationKey.verifySignature key payload signature)
      payload .ecdsaP256Sha256)

/-- Continue from a pre-verification of the form `form`. -/
def verifyFromPreVerify (form : ArtifactForm) (pre : PreVerifyResponse)
    (keys : PublicKeys Ed25519 P256) (options : VerifierOptions) :
    Run (Except InvocationError VerifierState) :=
  if pre.form ≠ form ∨ pre.outcome ≠ .ok then some (.error .invalidPreVerifyResult)
  else
    match pre.unverifiedPayloadBytes, pre.unverifiedSignature with
    | some payload, some sig =>
      verifyExtractedSignature C payload sig.algorithm.wireValue sig.signatureOctets keys options
    | _, _ => some (.error .invalidPreVerifyResult)

/-- `verify_from_pre_verify` of the YAML form. -/
def verifyFromPreVerifyYaml (pre : PreVerifyResponse) (keys : PublicKeys Ed25519 P256)
    (options : VerifierOptions) : Run (Except InvocationError VerifierState) :=
  verifyFromPreVerify C .yaml pre keys options

def verifyFromPreVerifyProto (pre : PreVerifyResponse) (keys : PublicKeys Ed25519 P256)
    (options : VerifierOptions) : Run (Except InvocationError VerifierState) :=
  verifyFromPreVerify C .proto pre keys options

/-- The state of a pre-verified artifact; `next` continues when there is a
signature to check. -/
def stateFromPreVerify (pre : PreVerifyResponse)
    (next : PreVerifyResponse → Run (Except InvocationError VerifierState)) :
    Run (Except InvocationError VerifierState) :=
  match pre.outcome with
  | .ok => next pre
  | .unsigned => some (.ok .unsigned)
  | .structuralFailure | .metadataParseFailure => some (.ok .malformedAttemptedSigned)

variable (K : Backend)

/-- The state and the observations, which are asked for and always empty. -/
def verifyYaml (artifact : Bytes) (keys : PublicKeys Ed25519 P256) (options : VerifierOptions)
    (includeParserObservations : Bool) :
    Run (Except InvocationError (VerifierState × List Text)) := do
  let pre ← preVerifyYaml K artifact false
  let obs := if includeParserObservations then pre.parserObservations else []
  match ← stateFromPreVerify pre (verifyFromPreVerifyYaml C · keys options) with
  | .error e => some (.error e)
  | .ok state => some (.ok (state, obs))

def verifyProto (wire : Bytes) (keys : PublicKeys Ed25519 P256) (options : VerifierOptions)
    (includeParserObservations : Bool) :
    Run (Except InvocationError (VerifierState × List Text)) := do
  let pre ← preVerifyProto K wire
  let obs := if includeParserObservations then pre.parserObservations else []
  match ← stateFromPreVerify pre (verifyFromPreVerifyProto C · keys options) with
  | .error e => some (.error e)
  | .ok state => some (.ok (state, obs))

def verifyWithMetadata (inputBytes : Bytes) (form : ArtifactForm) (keys : PublicKeys Ed25519 P256)
    (options : VerifierOptions) (includeParserObservations : Bool) :
    Run (Except InvocationError VerifyResult) :=
  if form ∉ supportedForms then some (.error .invalidOrUnsupportedForm)
  else if options.algorithmParameters ≠ [] then some (.error .invalidAlgorithmParameters)
  else do
    let r ←
      match form with
      | .yaml => verifyYaml C K inputBytes keys options includeParserObservations
      | .proto => verifyProto C K inputBytes keys options includeParserObservations
    match r with
    | .error e => some (.error e)
    | .ok (state, parserObservations) => some (.ok { state, parserObservations })

/-- Verify `inputBytes` in the selected form. -/
def verify (inputBytes : Bytes) (form : ArtifactForm) (keys : PublicKeys Ed25519 P256)
    (options : VerifierOptions) : Run (Except InvocationError VerifierState) := do
  match ← verifyWithMetadata C K inputBytes form keys options false with
  | .error e => some (.error e)
  | .ok r => some (.ok r.state)

def resourceForm : ArtifactForm → ArtifactResourceForm
  | .yaml => .yaml
  | .proto => .protobuf

def verifyWithResourceLimits (inputBytes : Bytes) (form : ArtifactForm)
    (keys : PublicKeys Ed25519 P256) (options : VerifierOptions) (limits : ArtifactResourceLimits) :
    Run (Except ArtifactResourceError (Except InvocationError VerifierState)) :=
  match limits.checkInputSize (resourceForm form) inputBytes with
  | .error e => some (.error e)
  | .ok _ => (verify C K inputBytes form keys options).map .ok

end

end Verification
end YamlSigil
