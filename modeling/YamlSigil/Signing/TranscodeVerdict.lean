/-
Transcoding preserves the verdict.

The source artifact says its payload and its fields, the emitted one is made
from them, and the verdict on an emitted artifact is the verdict on what it was
made from.  This covers the artifacts that the verifier rejects, among them those
whose YAML form is over the parser's budgets and whose protobuf form has no such
budgets.
-/
import YamlSigil.Signing.Transcode

namespace YamlSigil
namespace Signing

open YamlSigil.Core Transcription
open Verification

section
variable {C : Crypto} {K : Backend} {Ed25519 P256 : Type} [Ed25519VerificationKey Ed25519]
  [P256VerificationKey P256]

/-- The emitted artifact against the one its payload and fields were read from. -/
theorem verify_eq_of_emits (hK : K.Lawful) (keys : PublicKeys Ed25519 P256)
    (options : VerifierOptions) {form form' : ArtifactForm} {a a' p c : Bytes}
    {f : SignatureFields} (hcomp : components form a = some (p, c))
    (hf : carrierFields K form c = some f) (hemits : Emits K form' p f a') :
    verify C K a form keys options = verify C K a' form' keys options := by
  rw [verify_eq_verdict, verify_eq_verdict, verdict_emitted hK hemits,
    signedContent_of_components hcomp, hf, Option.bind_some]

/-- Main result on transcoding: in either direction, both forms get the same
answer under all keys and options. -/
theorem transcoding_preserves_verdict (hK : K.Lawful) {yaml wire : Bytes}
    (h : signedYamlStreamToProtoWire K yaml = some (.ok wire) ∨
      protoWireToSignedYamlStream K wire = some (.ok yaml))
    (keys : PublicKeys Ed25519 P256) (options : VerifierOptions) :
    verify C K yaml .yaml keys options = verify C K wire .proto keys options := by
  rcases h with h | h
  · obtain ⟨p, c, f, hcomp, hf, hemits⟩ := (signedYamlStreamToProtoWire_eq_ok_iff hK).mp h
    exact verify_eq_of_emits hK keys options hcomp hf hemits
  · obtain ⟨p, c, f, hcomp, hf, hemits⟩ := (protoWireToSignedYamlStream_eq_ok_iff hK).mp h
    exact (verify_eq_of_emits hK keys options hcomp hf hemits).symm

end

/-- The fields of the signed empty payload. -/
def rfc8032Fields : SignatureFields := ⟨.ed25519, none, Verification.rfc8032Test1Signature.val⟩

theorem components_rfc8032Wire : components .proto Verification.Reference.rfc8032Wire =
    some ([], [0x08, 0x01, 0x1A, 0x40] ++ Verification.rfc8032Test1Signature.val) := by
  decide +kernel

theorem protoFields_rfc8032Wire : protoFields Core.Reference.backend
    ([0x08, 0x01, 0x1A, 0x40] ++ Verification.rfc8032Test1Signature.val) =
      some rfc8032Fields := by
  decide +kernel

def rfc8032Yaml : Bytes :=
  [] ++ (marker .lf ++ asBytes (rfc8032Fields.yamlText Core.Reference.backend))

theorem protoWireToSignedYamlStream_rfc8032Wire :
    protoWireToSignedYamlStream Core.Reference.backend Verification.Reference.rfc8032Wire =
      some (.ok rfc8032Yaml) :=
  (protoWireToSignedYamlStream_eq_ok_iff Core.Reference.backend_lawful).mpr ⟨_, _, _,
    components_rfc8032Wire, protoFields_rfc8032Wire, .yaml payloadStream_nil⟩

/-- The YAML form of a signed empty payload is verified as its protobuf form is. -/
theorem transcoding_preserves_verdict_rfc8032 :
    verify Verification.Reference.crypto Core.Reference.backend rfc8032Yaml .yaml
      Verification.Reference.publicKeys ⟨true, false, []⟩ = some (.ok (.verified [] .ed25519)) := by
  have heq := transcoding_preserves_verdict (C := Verification.Reference.crypto)
    Core.Reference.backend_lawful (.inr protoWireToSignedYamlStream_rfc8032Wire)
    Verification.Reference.publicKeys ⟨true, false, []⟩
  rw [heq]
  decide +kernel

end Signing
end YamlSigil
