/-
The transcription operations: composing and taking apart artifacts as octets.

Neither operation looks into the signature carrier, apart from the test that the
YAML composer makes for an embedded marker.
-/
import YamlSigil.Core.Decomposition
import YamlSigil.Core.ProtoOuter

namespace YamlSigil
namespace Transcription

open Format YamlSigil.Core
open Pb (OuterConformance)

/-! ## Requests and answers -/

inductive TranscriptionForm where
  | yaml
  | protobuf
deriving Repr, DecidableEq

inductive TranscriberError where
  | invalidPayloadBytes
  | invalidSignatureCarrier
deriving Repr, DecidableEq

inductive TranscriberInvocationError where
  | invalidOrUnsupportedForm
  | invalidOrUnsupportedOuterConformance
deriving Repr, DecidableEq

structure TranscriberCapabilities where
  supportedForms : List TranscriptionForm
  supportedOuterConformances : List OuterConformance
deriving Repr, DecidableEq

structure ComposeRequest where
  payload : Bytes
  signatureCarrier : Bytes
  form : TranscriptionForm
deriving Repr, DecidableEq

structure ComposeSuccess where
  artifact : Bytes
  form : TranscriptionForm
deriving Repr, DecidableEq

inductive ComposeOutcome where
  | success (s : ComposeSuccess)
  | error (e : TranscriberError)
  | invocation (e : TranscriberInvocationError)
deriving Repr, DecidableEq

structure DecomposeRequest where
  artifact : Bytes
  form : TranscriptionForm
  outerConformance : Option OuterConformance
deriving Repr, DecidableEq

inductive DecomposeOutcome where
  | ok
  | unsigned
  | malformedAttemptedSigned
deriving Repr, DecidableEq

structure DecomposeStructuralResult where
  outcome : DecomposeOutcome
  payload : Option Bytes
  signatureCarrier : Option Bytes
  detail : Option Text
deriving Repr, DecidableEq

inductive DecomposeResponse where
  | structural (r : DecomposeStructuralResult)
  | invocation (e : TranscriberInvocationError)
deriving Repr, DecidableEq

/-! ## The operations -/

def transcriberCapabilities : TranscriberCapabilities where
  supportedForms := [.yaml, .protobuf]
  supportedOuterConformances := [.strict, .signatureStrict]

def validateComposeInvocation (req : ComposeRequest) : Except TranscriberInvocationError Unit :=
  if req.form ∉ transcriberCapabilities.supportedForms then .error .invalidOrUnsupportedForm
  else .ok ()

/-- The conformance mode of a protobuf request; a YAML request must not name one. -/
def validateDecomposeInvocation (req : DecomposeRequest) :
    Except TranscriberInvocationError OuterConformance :=
  if req.form ∉ transcriberCapabilities.supportedForms then .error .invalidOrUnsupportedForm
  else
    match req.form with
    | .yaml =>
      if req.outerConformance.isSome then .error .invalidOrUnsupportedOuterConformance
      else .ok .strict -- not used for YAML
    | .protobuf =>
      match req.outerConformance with
      | none => .error .invalidOrUnsupportedOuterConformance
      | some oc =>
        if oc ∉ transcriberCapabilities.supportedOuterConformances then
          .error .invalidOrUnsupportedOuterConformance
        else .ok oc

/-- The octets `"\n---\n"` and `"\n---\r\n"` anywhere, or a marker in front. -/
def containsConstrainedMarker (carrier : Bytes) : Bool :=
  [0x2D, 0x2D, 0x2D, 0x0A].isPrefixOf carrier ||
  [0x2D, 0x2D, 0x2D, 0x0D, 0x0A].isPrefixOf carrier ||
  (Scan.windows 5 carrier).any (· == [0x0A, 0x2D, 0x2D, 0x2D, 0x0A]) ||
  (Scan.windows 6 carrier).any (· == [0x0A, 0x2D, 0x2D, 0x2D, 0x0D, 0x0A])

def composeAfterInvocationValidation (req : ComposeRequest) : Run ComposeOutcome :=
  match req.form with
  | .yaml =>
    match validatePayloadStream req.payload with
    | .error _ => some (.error .invalidPayloadBytes)
    | .ok () =>
      if containsConstrainedMarker req.signatureCarrier then
        some (.error .invalidSignatureCarrier)
      else
        let out := req.payload ++ [0x2D, 0x2D, 0x2D, 0x0A] ++ req.signatureCarrier
        some (.success ⟨out, req.form⟩)
  | .protobuf => do
    let artifact ← composeProtoOuter req.payload req.signatureCarrier
    some (.success ⟨artifact, req.form⟩)

def compose (req : ComposeRequest) : Run ComposeOutcome :=
  match validateComposeInvocation req with
  | .error e => some (.invocation e)
  | .ok () => composeAfterInvocationValidation req

def decomposeYaml (artifact : Bytes) : DecomposeResponse :=
  match decomposeArtifact artifact with
  | .unsigned => .structural ⟨.unsigned, none, none, none⟩
  | .malformed => .structural ⟨.malformedAttemptedSigned, none, none, none⟩
  | .signed r => .structural
      ⟨.ok, some (slice artifact r.payload), some (slice artifact r.signatureCarrier), none⟩

def decomposeProto (wire : Bytes) (mode : OuterConformance) : DecomposeResponse :=
  match decomposeProtoOuter wire mode with
  | .malformed => .structural ⟨.malformedAttemptedSigned, none, none, none⟩
  | .ok payload signatureCarrier =>
    .structural ⟨.ok, some payload, some signatureCarrier, none⟩

def decompose (req : DecomposeRequest) : DecomposeResponse :=
  match validateDecomposeInvocation req with
  | .error e => .invocation e
  | .ok outer =>
    match req.form with
    | .yaml => decomposeYaml req.artifact
    | .protobuf => decomposeProto req.artifact outer

theorem compose_yaml (p c : Bytes) :
    compose ⟨p, c, .yaml⟩ = composeAfterInvocationValidation ⟨p, c, .yaml⟩ := rfl

theorem compose_protobuf (p c : Bytes) :
    compose ⟨p, c, .protobuf⟩ =
      (composeProtoOuter p c).map fun artifact => .success ⟨artifact, .protobuf⟩ := by
  show (composeProtoOuter p c).bind _ = _
  cases composeProtoOuter p c with
  | none => rfl
  | some w => rfl

theorem decompose_yaml (a : Bytes) : decompose ⟨a, .yaml, none⟩ = decomposeYaml a := rfl

theorem decompose_protobuf (w : Bytes) (mode : OuterConformance) :
    decompose ⟨w, .protobuf, some mode⟩ = decomposeProto w mode := by
  cases mode with
  | strict => rfl
  | signatureStrict => rfl

end Transcription
end YamlSigil
