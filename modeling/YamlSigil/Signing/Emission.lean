/-
What emitted artifacts say.

Signer and transcoder emit artifacts of the same kind: a payload with the
canonical carrier of some signature fields.  Whatever the fields, the verdict on
such an artifact is the verdict on what it was made from.  A YAML carrier that
the parser's budgets keep it from reading is one no verifier would accept.
-/
import YamlSigil.Core.OuterRoundTrip
import YamlSigil.Signing.Sign
import YamlSigil.Verification.Soundness

namespace YamlSigil
namespace Signing

open Format YamlSigil.Core Transcription
open Verification

/-! ## The YAML carrier has no marker line -/

/-- The lines start with the letters of their keys. -/
theorem line_starts {K : Backend} {f : SignatureFields} {l : Text} (h : l ∈ f.lines K) :
    ∃ c t, l = c :: t ∧ c ≠ '-' := by
  simp only [SignatureFields.lines, SignatureFields.keyidLines, List.mem_append, List.mem_cons,
    List.not_mem_nil, or_false] at h
  rcases h with (h | h) | h | h
  · exact ⟨_, _, h, by decide⟩
  · exact ⟨_, _, h, by decide⟩
  · cases hk : f.keyid with
    | none =>
      rw [hk] at h
      cases h
    | some keyid =>
      rw [hk] at h
      exact ⟨_, _, List.mem_singleton.mp h, by decide⟩
  · exact ⟨_, _, h, by decide⟩

theorem char_eq_of_toNat {c d : Char} (h : c.toNat = d.toNat) : c = d := by
  rw [← Char.ofNat_toNat c, ← Char.ofNat_toNat d, h]

/-- An octet `0x2D` at the start of a line is a `-` at the start of a line. -/
theorem not_lineStart_of_encode {t : Text} (ht : ∀ pre post, t = pre ++ '-' :: post →
    ¬ ∀ c ∈ pre.getLast?, c = '\n') {pre post : Bytes} (h : asBytes t = pre ++ 0x2D :: post) :
    ¬ LineStart pre := by
  obtain ⟨t₁, c, t₂, hsplit, hpre, hc, -⟩ :=
    Utf8.encode_eq_append_cons (show (0x2D : UInt8).toNat < 128 by decide) h
  have hdash : c = '-' := char_eq_of_toNat hc
  subst hdash
  intro hstart
  apply ht t₁ t₂ hsplit
  rcases hstart with hnil | ⟨p, hp⟩
  · rw [hnil] at hpre
    rw [show t₁ = [] from Utf8.encode_injective hpre]
    intro c hc
    cases hc
  · rw [hp] at hpre
    obtain ⟨u, d, v, hu, -, hd, hv⟩ :=
      Utf8.encode_eq_append_cons (show (0x0A : UInt8).toNat < 128 by decide) hpre
    have hlf : d = '\n' := char_eq_of_toNat hd
    have hv : v = [] := Utf8.encode_injective hv
    subst hlf hv hu
    intro c hc
    simpa using hc.symm

/-- Lines that do not start with `-` hold no marker line. -/
theorem not_hasMarker_unlines {ls : List Text}
    (hls : ∀ l ∈ ls, '\n' ∉ l ∧ ∃ c t, l = c :: t ∧ c ≠ '-') :
    ¬ HasMarker (asBytes (Yaml.unlines ls)) := by
  intro h
  rcases h with ⟨pre, e, post, hm⟩
  have hsplit : asBytes (Yaml.unlines ls) =
      pre ++ 0x2D :: (0x2D :: 0x2D :: (e.octets ++ post)) := by
    rw [hm.split]
    rfl
  exact not_lineStart_of_encode
    (fun pre post h => Yaml.not_lineStart_of_unlines (by decide) hls h) hsplit hm.lineStart

theorem clean_line {K : Backend} (hS : K.base64.Lawful) {f : SignatureFields} {l : Text}
    (h : l ∈ f.lines K) : '\n' ∉ l ∧ ∃ c t, l = c :: t ∧ c ≠ '-' :=
  ⟨no_lf_of_forall₂ (SignatureFields.forall₂_lines hS f) l h, line_starts h⟩

theorem not_hasMarker_yamlText {K : Backend} (hS : K.base64.Lawful) (f : SignatureFields) :
    ¬ HasMarker (asBytes (f.yamlText K)) :=
  not_hasMarker_unlines fun _ hl => clean_line hS hl

theorem lines_ne_nil (K : Backend) (f : SignatureFields) : f.lines K ≠ [] := by
  rw [SignatureFields.lines, List.cons_append]
  exact List.cons_ne_nil _ _

theorem asBytes_unlines_ne_nil {ls : List Text} (h : ls ≠ []) : asBytes (Yaml.unlines ls) ≠ [] := by
  intro hnil
  have hempty : Yaml.unlines ls = [] := Utf8.encode_injective hnil
  cases ls with
  | nil => exact h rfl
  | cons l ls =>
    rw [Yaml.unlines_cons] at hempty
    exact absurd hempty (by simp)

theorem lf_suffix_yamlText (K : Backend) (f : SignatureFields) : ['\n'] <:+ f.yamlText K := by
  rw [SignatureFields.yamlText, SignatureFields.lines, ← List.append_assoc, Yaml.unlines,
    List.flatMap_append, List.flatMap_singleton, ← List.append_assoc]
  exact List.suffix_append _ _

/-- The serializer ends the document itself. -/
theorem terminated_yamlText (K : Backend) (f : SignatureFields) :
    (if ['\n'].isSuffixOf (f.yamlText K) then f.yamlText K else f.yamlText K ++ ['\n']) =
      f.yamlText K := if_pos (List.isSuffixOf_iff_suffix.mpr (lf_suffix_yamlText K f))

/-! ## Reading the carriers -/

section
variable {K : Backend} (hK : K.Lawful)

include hK

theorem yamlFields_eq_some_iff {c : Bytes} {f : SignatureFields} :
    yamlFields K c = some f ↔ parseSignatureDocument K c = .ok (f.toDocument K.base64) := by
  rw [yamlFields]
  cases hd : parseSignatureDocument K c with
  | error e => exact ⟨fun h => (by cases h), fun h => (by cases h)⟩
  | ok doc =>
    simp only
    rw [SignatureFields.ofDocument_eq_some_iff hK.base64, Except.ok.injEq]

theorem yamlFields_yamlText {f : SignatureFields} (h : f.WithinBudgets K) :
    yamlFields K (asBytes (f.yamlText K)) = some f :=
  (yamlFields_eq_some_iff hK).mpr (SignatureFields.parse_yamlText hK h)

/-- Over the budgets the parser may refuse, but it does not misread. -/
theorem eq_of_yamlFields_yamlText {f g : SignatureFields}
    (h : yamlFields K (asBytes (f.yamlText K)) = some g) : g = f := by
  have hdoc := SignatureFields.eq_of_parse_yamlText hK ((yamlFields_eq_some_iff hK).mp h)
  have hg := (SignatureFields.ofDocument_eq_some_iff hK.base64).mpr
    (show g.toDocument K.base64 = g.toDocument K.base64 from rfl)
  rw [hdoc, (SignatureFields.ofDocument_eq_some_iff hK.base64).mpr rfl] at hg
  exact (Option.some.inj hg).symm

theorem viewSignatureCarrier_encodeInner {a : AlgorithmId} {keyid : Option Text}
    {signature c : Bytes} (h : encodeInnerSignatureCarrier K.buffa a signature keyid = some c) :
    viewSignatureCarrier K.buffa c = .ok ⟨[], a.wireValue, signature, keyid⟩ := by
  have hdec := Pb.YamlSigilSignature.decode_of_encodeToVec hK.buffa rfl (expectOk_eq_some_iff.mp h)
  exact viewSignatureCarrier_eq_ok_iff.mpr ⟨_, hdec, rfl⟩

theorem protoFields_encodeInner {f : SignatureFields} {c : Bytes}
    (h : encodeInnerSignatureCarrier K.buffa f.alg f.signature f.keyid = some c) :
    protoFields K c = some f := by
  rw [protoFields, viewSignatureCarrier_encodeInner hK h]
  simp only
  rw [AlgorithmId.fromI32_wireValue]
  rfl

end

/-! ## Emitted artifacts -/

/-- The artifacts that are made from a payload and signature fields. -/
inductive Emits (K : Backend) : ArtifactForm → Bytes → SignatureFields → Bytes → Prop
  | yaml {p : Bytes} {f : SignatureFields} : PayloadStream p →
      Emits K .yaml p f (p ++ (marker .lf ++ asBytes (f.yamlText K)))
  | proto {p c w : Bytes} {f : SignatureFields} :
      encodeInnerSignatureCarrier K.buffa f.alg f.signature f.keyid = some c →
      composeProtoOuter p c = some w → Emits K .proto p f w

section
variable {K : Backend} (hK : K.Lawful)

include hK

omit hK in
/-- A payload stream with a carrier of such lines comes apart. -/
theorem components_yaml_unlines {p : Bytes} (hp : PayloadStream p) {ls : List Text} (hne : ls ≠ [])
    (hls : ∀ l ∈ ls, '\n' ∉ l ∧ ∃ c t, l = c :: t ∧ c ≠ '-') :
    components .yaml (p ++ (marker .lf ++ asBytes (Yaml.unlines ls))) =
      some (p, asBytes (Yaml.unlines ls)) := by
  let v : YamlEnvelope := ⟨p, .lf, asBytes (Yaml.unlines ls), hp, Utf8.valid_encode _,
    asBytes_unlines_ne_nil hne, not_hasMarker_unlines hls⟩
  exact components_eq_some_iff.mpr (.yaml v.cleanText v.lastMarker v.carrier_ne_nil)

theorem components_yaml_emitted {p : Bytes} (hp : PayloadStream p) (f : SignatureFields) :
    components .yaml (p ++ (marker .lf ++ asBytes (f.yamlText K))) =
      some (p, asBytes (f.yamlText K)) :=
  components_yaml_unlines hp (lines_ne_nil K f) fun _ hl => clean_line hK.base64 hl

omit hK in
theorem components_proto_emitted {p c w : Bytes} (h : composeProtoOuter p c = some w) :
    components .proto w = some (p, c) :=
  components_eq_some_iff.mpr (.proto (decomposeProtoOuter_of_composeProtoOuter h .signatureStrict))

/-- Emitted artifacts come apart into what they were made from. -/
theorem components_emitted {form : ArtifactForm} {p a : Bytes} {f : SignatureFields}
    (h : Emits K form p f a) : ∃ c, components form a = some (p, c) ∧
      (∀ g, carrierFields K form c = some g → g = f) ∧
      (f.WithinBudgets K → carrierFields K form c = some f) := by
  cases h with
  | yaml hp => exact ⟨_, components_yaml_emitted hK hp f,
      fun g hg => eq_of_yamlFields_yamlText hK hg, fun hb => yamlFields_yamlText hK hb⟩
  | proto hc hw =>
    have hf := protoFields_encodeInner hK hc
    refine ⟨_, components_proto_emitted hw, fun g hg => ?_, fun _ => hf⟩
    have hg : protoFields K _ = some g := hg
    rw [hf] at hg
    exact (Option.some.inj hg).symm

end

/-! ## The verdict on emitted artifacts -/

theorem keyidLength_le_of_keyidOk {keyid : Option Text} (h : KeyidOk keyid) :
    SignatureFields.keyidLength keyid ≤ 1024 := by
  cases keyid with
  | none => exact Nat.zero_le _
  | some k =>
    have hk := h k rfl
    simp only [keyidIsValid, Bool.and_eq_true, decide_eq_true_eq] at hk
    exact hk.1.1.2

section
variable {C : Crypto} {Ed25519 P256 : Type} [Ed25519VerificationKey Ed25519]
  [P256VerificationKey P256] {keys : PublicKeys Ed25519 P256} {options : VerifierOptions}

theorem verdict_of_length_ne {s : SignedContent} (h : s.fields.signature.length ≠ 64) :
    verdict C keys options (some s) = .ok .malformedAttemptedSigned := by
  rw [verdict, octets64, dif_neg h]

/-- Fields over the budgets are malformed. -/
theorem verdict_ofFields_of_not_withinBudgets {K : Backend} (hK : K.Lawful) {p : Bytes}
    {f : SignatureFields} (h : ¬ f.WithinBudgets K) :
    verdict C keys options (SignedContent.ofFields p f) = .ok .malformedAttemptedSigned := by
  by_cases hk : KeyidOk f.keyid
  · rw [ofFields_of_keyidOk hk]
    apply verdict_of_length_ne
    intro hs
    have hlen := keyidLength_le_of_keyidOk hk
    exact h (SignatureFields.withinBudgets_of_verifiable hK.base64 hlen hs)
  · rw [ofFields_of_not_keyidOk hk]
    rfl

theorem verdict_emitted {K : Backend} (hK : K.Lawful) {form : ArtifactForm} {p a : Bytes}
    {f : SignatureFields} (h : Emits K form p f a) :
    verdict C keys options (signedContent K form a) =
      verdict C keys options (SignedContent.ofFields p f) := by
  obtain ⟨c, hcomp, honly, hread⟩ := components_emitted hK h
  rw [signedContent_of_components hcomp]
  by_cases hb : f.WithinBudgets K
  · rw [hread hb, Option.bind_some]
  · cases hg : carrierFields K form c with
    | none =>
      rw [verdict_ofFields_of_not_withinBudgets hK hb]
      rfl
    | some g => rw [honly g hg, Option.bind_some]

end

end Signing
end YamlSigil
