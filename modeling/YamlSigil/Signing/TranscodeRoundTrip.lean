/-
Transcoding there and back.

An artifact that was transcoded to protobuf can always be transcoded to YAML
again, and what an artifact says survives both ways.  Transcoding back from YAML
parses the emitted carrier, and this works as long as the carrier is within the
budgets of the parser, which emission does not look at: the source form bounds
neither field, and escaping makes a key identifier up to six times longer.
-/
import YamlSigil.Signing.TranscodeVerdict

namespace YamlSigil
namespace Signing

open Format YamlSigil.Core Transcription
open Verification

/-! ## Sizes -/

theorem length_varintField_le {field : Nat} (hf : field < 16) {v : Nat} (hv : v < 2 ^ 64) :
    (Wire.varintField field v).length ≤ 11 := by
  have htag : (Wire.tag field 0).length ≤ 1 := Varint.length_encode_le (k := 0) (by omega)
  have hval : (Varint.encode v).length ≤ 10 := (Varint.isVarint_encode hv).length_le
  rw [Wire.varintField, List.length_append]
  omega

/-- The message of some fields. -/
def messageOf (f : SignatureFields) : Pb.YamlSigilSignature :=
  (Pb.YamlSigilSignature.new f.alg f.signature).setKeyid f.keyid

theorem length_octets_le {f : SignatureFields}
    (h : SignatureFields.keyidLength f.keyid + f.signature.length < 2 ^ 63) :
    (messageOf f).octets.length ≤
      SignatureFields.keyidLength f.keyid + f.signature.length + 33 := by
  have halg : (Pb.YamlSigilSignature.algorithmOctets f.alg.wireValue).length ≤ 11 := by
    rw [Pb.YamlSigilSignature.algorithmOctets]
    split
    · exact length_varintField_le (by decide) (UInt64.toNat_lt _)
    · exact Nat.zero_le _
  have hkeyid : (Pb.YamlSigilSignature.keyidOctets f.keyid).length ≤
      SignatureFields.keyidLength f.keyid + 11 := by
    cases hk : f.keyid with
    | none => exact Nat.zero_le _
    | some keyid =>
      rw [hk] at h
      exact length_lenField_le (by decide) (show (asBytes keyid).length < 2 ^ 64 from by
        have : SignatureFields.keyidLength (some keyid) = (asBytes keyid).length := rfl
        omega)
  have hsig : (Pb.YamlSigilSignature.signatureOctets f.signature).length ≤
      f.signature.length + 11 := by
    rw [Pb.YamlSigilSignature.signatureOctets]
    split
    · exact length_lenField_le (by decide) (by omega)
    · exact Nat.zero_le _
  show (Pb.YamlSigilSignature.algorithmOctets f.alg.wireValue ++
    Pb.YamlSigilSignature.keyidOctets f.keyid ++
      Pb.YamlSigilSignature.signatureOctets f.signature ++
      ([] : List Bytes).flatten).length ≤ _
  rw [List.length_append, List.length_append, List.length_append]
  show _ + 0 ≤ _
  omega

/-- The wire that is emitted for a payload and fields. -/
def wireOf (p : Bytes) (f : SignatureFields) : Bytes := Pb.RawOuter.octets ⟨p, (messageOf f).octets⟩

/-- Payloads and fields that fit into memory and into a message are emitted. -/
theorem emits_wireOf {K : Backend} (hK : K.Lawful) {p : Bytes} {f : SignatureFields}
    (hp : p.length < 2 ^ 63)
    (hf : SignatureFields.keyidLength f.keyid + f.signature.length < 2 ^ 30) :
    Emits K .proto p f (wireOf p f) := by
  have hlen := length_octets_le (f := f) (by omega)
  have hceil : K.buffa.maxMessageBytes.toNat = 2 ^ 31 - 1 := by
    rw [hK.buffa.ceiling]
    rfl
  have hencode : (messageOf f).encodeToVec K.buffa = .ok (messageOf f).octets :=
    Pb.encodeFacadeToVec_eq_ok_iff.mpr ⟨rfl, by omega⟩
  have hsome := isSome_composeProtoOuter (p := p) (c := (messageOf f).octets) (by omega)
  obtain ⟨w, hw⟩ := Option.isSome_iff_exists.mp hsome
  have hwire : w = wireOf p f := (Pb.composeRawOuter_eq_some_iff.mp hw).1
  rw [hwire] at hw
  exact .proto (expectOk_eq_some_iff.mpr hencode) hw

theorem keyidLength_le_scalarBytes (keyid : Option Text) :
    SignatureFields.keyidLength keyid ≤ scalarBytes (SignatureFields.keyidEntries keyid) := by
  cases keyid with
  | none => exact Nat.zero_le _
  | some keyid =>
    show (asBytes keyid).length ≤ (asBytes "keyid".toList).length + (asBytes keyid).length + 0
    omega

theorem sizes_of_withinBudgets {K : Backend} (hS : K.base64.Lawful) {f : SignatureFields}
    (h : f.WithinBudgets K) :
    SignatureFields.keyidLength f.keyid + f.signature.length < 2 ^ 30 := by
  have hscalars : scalarBytes (f.entries K.base64) ≤ 8 * 1024 := h.scalars
  have hkeyid := keyidLength_le_scalarBytes f.keyid
  have hsig : (asBytes (K.base64.encode f.signature)).length ≤
      scalarBytes [("signature".toList, K.base64.encode f.signature)] := by
    show (asBytes (K.base64.encode f.signature)).length ≤
      (asBytes "signature".toList).length + (asBytes (K.base64.encode f.signature)).length + 0
    omega
  have henc := SignatureFields.length_asBytes_encode hS f.signature
  rw [SignatureFields.entries, SignatureFields.scalarBytes_append,
    SignatureFields.scalarBytes_append] at hscalars
  omega

/-! ## Reading back -/

/-- The budgets of the parser that emission does not look at, on a carrier: its
octets, and the octets of its decoded scalars. -/
structure CarrierWithinBudgets (c : Bytes) : Prop where
  octets : c.length ≤ signatureDocumentMaxBytes
  scalars : ∃ t es, c = asBytes t ∧ Yaml.readFlat t = some es ∧
    scalarBytes es ≤ signatureDocumentMaxTotalScalarBytes

theorem carrierWithinBudgets_iff {K : Backend} (hS : K.base64.Lawful)
    (hprobe : K.noyalib.ProbesYaml) {f : SignatureFields} :
    CarrierWithinBudgets (asBytes (f.yamlText K)) ↔ f.WithinBudgets K := by
  constructor
  · intro h
    rcases h with ⟨hoctets, t, es, ht, hes, hscalars⟩
    have heq : f.yamlText K = t := Utf8.encode_injective ht
    rw [← heq, SignatureFields.readFlat_yamlText hS hprobe f] at hes
    rw [← Option.some.inj hes] at hscalars
    exact ⟨hoctets, hscalars⟩
  · intro h
    exact ⟨h.carrier, _, _, rfl, SignatureFields.readFlat_yamlText hS hprobe f, h.scalars⟩

/-- The error for a carrier that is too long. -/
def carrierTooLong : TranscodeError :=
  .core (.signatureYaml "signature carrier exceeds the maximum supported byte length".toList)

theorem yamlDecompose_emitted {K : Backend} (hK : K.Lawful) {p : Bytes} (hp : PayloadStream p)
    (f : SignatureFields) :
    yamlDecompose (p ++ (marker .lf ++ asBytes (f.yamlText K))) = .ok (p, asBytes (f.yamlText K)) :=
  yamlDecompose_eq_ok_iff.mpr (components_yaml_emitted hK hp f)

theorem signedYamlStreamToProtoWire_of_long_carrier {K : Backend} {a p c : Bytes}
    (hd : yamlDecompose a = .ok (p, c)) (hlong : c.length > signatureDocumentMaxBytes) :
    signedYamlStreamToProtoWire K a = some (.error carrierTooLong) := by
  have hvalid := validatePayloadStream_eq_ok_iff.mpr
    (payloadStream_of_components (yamlDecompose_eq_ok_iff.mp hd))
  have hparse : parseSignatureDocument K c = .error (.signatureYaml
      "signature carrier exceeds the maximum supported byte length".toList) := by
    rw [parseSignatureDocument, ensureSignatureDocumentByteBudget, if_pos hlong]
  rw [signedYamlStreamToProtoWire, yamlToProtoComponents]
  simp only [hd, hvalid, hparse]
  rfl

/-- What a signed YAML stream is read back to: within the budgets to a wire, and
over the octet budget to an error. -/
structure ReadsBack (K : Backend) (y : Bytes) (p c : Bytes) : Prop where
  parts : yamlDecompose y = .ok (p, c)
  within : CarrierWithinBudgets c → ∃ w, signedYamlStreamToProtoWire K y = some (.ok w)
  beyond : c.length > signatureDocumentMaxBytes →
    signedYamlStreamToProtoWire K y = some (.error carrierTooLong)

theorem readsBack_emitted {K : Backend} (hK : K.Lawful) (hprobe : K.noyalib.ProbesYaml)
    {p y : Bytes} {f : SignatureFields} (hp : p.length < 2 ^ 63) (h : Emits K .yaml p f y) :
    ReadsBack K y p (asBytes (f.yamlText K)) := by
  cases h with
  | yaml hstream =>
    refine ⟨yamlDecompose_emitted hK hstream f, fun hb => ?_,
      signedYamlStreamToProtoWire_of_long_carrier (yamlDecompose_emitted hK hstream f)⟩
    have hb := (carrierWithinBudgets_iff hK.base64 hprobe).mp hb
    have hw := emits_wireOf hK hp (sizes_of_withinBudgets hK.base64 hb)
    exact ⟨_, (signedYamlStreamToProtoWire_eq_ok_iff hK).mpr
      ⟨p, _, f, components_yaml_emitted hK hstream f, yamlFields_yamlText hK hb, hw⟩⟩

/-- An emitted wire is transcoded to the canonical YAML artifact. -/
theorem protoWireToSignedYamlStream_emitted {K : Backend} (hK : K.Lawful) {p w : Bytes}
    {f : SignatureFields} (hp : PayloadStream p) (h : Emits K .proto p f w) :
    protoWireToSignedYamlStream K w =
      some (.ok (p ++ (marker .lf ++ asBytes (f.yamlText K)))) := by
  cases h with
  | proto hc hw =>
    exact (protoWireToSignedYamlStream_eq_ok_iff hK).mpr
      ⟨p, _, f, components_proto_emitted hw, protoFields_encodeInner hK hc, .yaml hp⟩

theorem length_le_of_components {form : ArtifactForm} {a p c : Bytes}
    (h : components form a = some (p, c)) : p.length ≤ a.length := by
  cases components_eq_some_iff.mp h with
  | yaml _ hm _ =>
    rw [hm.split, List.length_append]
    exact Nat.le_add_right _ _
  | proto hd => exact length_payload_le hd

/-- Main result on reading back: what is transcoded to YAML, from any wire, is
read back within the budgets, and what was transcoded to protobuf is always
transcoded to YAML.  Fields that a verifier can accept are within the budgets. -/
theorem transcoded_artifacts_read_back {K : Backend} (hK : K.Lawful)
    (hprobe : K.noyalib.ProbesYaml) :
    (∀ w y : Bytes, w.length < 2 ^ 63 → protoWireToSignedYamlStream K w = some (.ok y) →
      ∃ p c, ReadsBack K y p c) ∧
    (∀ a w : Bytes, a.length < 2 ^ 63 → signedYamlStreamToProtoWire K a = some (.ok w) →
      ∃ y p c, protoWireToSignedYamlStream K w = some (.ok y) ∧ ReadsBack K y p c) ∧
    ∀ f : SignatureFields, SignatureFields.keyidLength f.keyid ≤ 1024 → f.signature.length = 64 →
      CarrierWithinBudgets (asBytes (f.yamlText K)) := by
  refine ⟨fun w y hlen h => ?_, fun a w hlen h => ?_, fun f hk hs => ?_⟩
  · obtain ⟨p, c, f, hcomp, -, hemits⟩ := (protoWireToSignedYamlStream_eq_ok_iff hK).mp h
    have hp := length_le_of_components hcomp
    exact ⟨p, _, readsBack_emitted hK hprobe (by omega) hemits⟩
  · obtain ⟨p, c, f, hcomp, -, hemits⟩ := (signedYamlStreamToProtoWire_eq_ok_iff hK).mp h
    have hp := length_le_of_components hcomp
    have hstream := payloadStream_of_components hcomp
    exact ⟨_, p, _, protoWireToSignedYamlStream_emitted hK hstream hemits,
      readsBack_emitted hK hprobe (by omega) (.yaml hstream)⟩
  · exact (carrierWithinBudgets_iff hK.base64 hprobe).mpr
      (SignatureFields.withinBudgets_of_verifiable hK.base64 hk hs)

theorem withinBudgets_rfc8032Fields : rfc8032Fields.WithinBudgets Core.Reference.backend :=
  SignatureFields.withinBudgets_of_verifiable Core.Reference.base64_lawful (by decide) (by decide)

/-- The YAML form of the signed empty payload is read back. -/
theorem transcoded_artifacts_read_back_rfc8032 :
    ∃ w, signedYamlStreamToProtoWire Core.Reference.backend rfc8032Yaml = some (.ok w) := by
  have hK := Core.Reference.backend_lawful
  have hread := transcoded_artifacts_read_back hK Core.Reference.noyalib_probesYaml
  obtain ⟨p, c, hback⟩ := hread.1 _ _ (by decide +kernel) protoWireToSignedYamlStream_rfc8032Wire
  have hparts := hback.parts
  rw [rfc8032Yaml, yamlDecompose_emitted hK payloadStream_nil rfc8032Fields] at hparts
  cases hparts
  exact hback.within (hread.2.2 rfc8032Fields (by decide) (by decide))

/-! ## Carriers over the budgets

A key identifier of many octets, and one that a YAML carrier within the budgets
spells with four characters an octet where emission takes six. -/

theorem length_asBytes_replicate {c : Char} (hc : c.toNat < 128) (n : Nat) :
    (asBytes (List.replicate n c)).length = n := by
  have hascii := Utf8.length_encode_ascii (t := List.replicate n c) fun d hd => by
    rw [List.eq_of_mem_replicate hd]
    exact hc
  rw [List.length_replicate] at hascii
  exact hascii

theorem length_flatMap_replicate {c : Char} {q : Char → Text} (n : Nat) :
    ((List.replicate n c).flatMap q).length = n * (q c).length := by
  induction n with
  | zero => rw [Nat.zero_mul, List.replicate_zero, List.flatMap_nil, List.length_nil]
  | succ n ih =>
    rw [List.replicate_succ, List.flatMap_cons, List.length_append, ih, Nat.succ_mul]
    omega

/-- `n` times the letter `a`. -/
def longKeyidFields (n : Nat) : SignatureFields := ⟨.ed25519, some (List.replicate n 'a'), []⟩

/-- `n` times the control character 1. -/
def controlKeyidFields (n : Nat) : SignatureFields :=
  ⟨.ed25519, some (List.replicate n '\x01'), []⟩

def spelledKeyid (n : Nat) : Text :=
  '"' :: ((List.replicate n '\x01').flatMap (fun _ => "\\x01".toList) ++ ['"'])

def controlKeyidLines (n : Nat) : List Text := [
  Yaml.entryLine "schema".toList schemaV1alpha1,
  Yaml.entryLine "alg".toList AlgorithmId.ed25519.asYamlStr,
  Yaml.entryLine "keyid".toList (spelledKeyid n),
  Yaml.entryLine "signature".toList ['"', '"']]

/-- An empty payload whose carrier spells the control characters. -/
def controlKeyidArtifact (n : Nat) : Bytes :=
  [] ++ (marker .lf ++ asBytes (Yaml.unlines (controlKeyidLines n)))

theorem spelledKeyid_ascii {n : Nat} {c : Char} (h : c ∈ spelledKeyid n) :
    c.toNat < 128 ∧ c ≠ '\n' := by
  have hall : ∀ c ∈ ['"', '\\', 'x', '0', '1'], c.toNat < 128 ∧ c ≠ '\n' := by simp
  apply hall
  rcases List.mem_cons.mp h with h | h
  · rw [h]
    exact List.mem_cons_self ..
  · rcases List.mem_append.mp h with h | h
    · obtain ⟨_, _, h⟩ := List.mem_flatMap.mp h
      exact List.mem_cons_of_mem _ h
    · rw [List.mem_singleton.mp h]
      exact List.mem_cons_self ..

theorem length_spelledKeyid (n : Nat) : (asBytes (spelledKeyid n)).length = 4 * n + 2 := by
  have hascii := Utf8.length_encode_ascii (t := spelledKeyid n)
    fun c hc => (spelledKeyid_ascii hc).1
  have hlen : (spelledKeyid n).length = n * 4 + 1 + 1 := by
    rw [spelledKeyid, List.length_cons, List.length_append, length_flatMap_replicate]
    rfl
  show (Utf8.encode (spelledKeyid n)).length = _
  omega

theorem spells_spelledKeyid (N : Noyalib) (n : Nat) :
    N.Spells (spelledKeyid n) (List.replicate n '\x01') := by
  apply Noyalib.Spells.quoted
  · have hescape : Yaml.Interior "\\x01".toList :=
      .escape (by decide) (.char (by decide) (by decide) (by decide)
        (.char (by decide) (by decide) (by decide) .nil))
    exact Yaml.Interior.flatMap (fun _ => hescape) _
  · apply Yaml.readQuoted_flatMap (q := fun _ => "\\x01".toList)
    intro c hc
    rw [List.eq_of_mem_replicate hc]
    exact Yaml.spells_escape fun _ => rfl

theorem forall₂_controlKeyidLines (n : Nat) :
    List.Forall₂ Core.Reference.noyalib.SpellsEntry (controlKeyidLines n)
      ((controlKeyidFields n).entries Core.Reference.base64) := by
  have hempty : Core.Reference.noyalib.Spells ['"', '"'] [] := .quoted Yaml.Interior.nil rfl
  exact .cons (.line (by decide) (.plain (by decide)))
    (.cons (.line (by decide) (.plain (by decide)))
      (.cons (.line (by decide) (spells_spelledKeyid _ n))
        (.cons (.line (by decide) hempty) .nil)))

theorem clean_controlKeyidLine {n : Nat} {l : Text} (h : l ∈ controlKeyidLines n) :
    '\n' ∉ l ∧ ∃ c t, l = c :: t ∧ c ≠ '-' := by
  refine ⟨no_lf_of_forall₂ (forall₂_controlKeyidLines n) l h, ?_⟩
  simp only [controlKeyidLines, List.mem_cons, List.not_mem_nil, or_false] at h
  rcases h with h | h | h | h
  all_goals exact ⟨_, _, h, by decide⟩

/-- Up to 4000 control characters are within the budgets. -/
theorem yamlFields_controlKeyid {n : Nat} (hn : n ≤ 4000) :
    yamlFields Core.Reference.backend (asBytes (Yaml.unlines (controlKeyidLines n))) =
      some (controlKeyidFields n) := by
  have h1 : (asBytes "schema".toList).length = 6 := by decide
  have h2 : (asBytes schemaV1alpha1).length = 27 := by decide
  have h3 : (asBytes "alg".toList).length = 3 := by decide
  have h4 : (asBytes AlgorithmId.ed25519.asYamlStr).length = 36 := by decide
  have h5 : (asBytes "keyid".toList).length = 5 := by decide
  have h6 : (asBytes "signature".toList).length = 9 := by decide
  have h7 : (asBytes ['"', '"']).length = 2 := by decide
  have hlen :
      (asBytes (Yaml.unlines (controlKeyidLines n))).length ≤ signatureDocumentMaxBytes := by
    rw [SignatureFields.length_asBytes_unlines]
    simp only [controlKeyidLines, List.map_cons, List.map_nil, List.sum_cons, List.sum_nil,
      SignatureFields.length_asBytes_entryLine, length_spelledKeyid, h1, h2, h3, h4, h5, h6, h7]
    show _ ≤ 16 * 1024
    omega
  have hscalars : scalarBytes ((controlKeyidFields n).entries Core.Reference.base64) ≤
      signatureDocumentMaxTotalScalarBytes := by
    have hkeyid := length_asBytes_replicate (c := '\x01') (by decide) n
    show (asBytes "schema".toList).length + (asBytes schemaV1alpha1).length +
      ((asBytes "alg".toList).length + (asBytes AlgorithmId.ed25519.asYamlStr).length +
        ((asBytes "keyid".toList).length + (asBytes (List.replicate n '\x01')).length +
          ((asBytes "signature".toList).length + 0 + 0))) ≤ 8 * 1024
    omega
  exact (yamlFields_eq_some_iff Core.Reference.backend_lawful).mpr
    (parse_of_spellsFlat Core.Reference.noyalib_followsYaml
      (.lines (List.cons_ne_nil _ _) (forall₂_controlKeyidLines n))
      (SignatureFields.ofEntries_entries _ _) (SignatureFields.length_entries_le _ _) hlen hscalars)

/-- Emission takes six octets for each of them. -/
theorem length_controlKeyid_yamlText (n : Nat) :
    6 * n ≤ (asBytes ((controlKeyidFields n).yamlText Core.Reference.backend)).length := by
  have hquote := SignatureFields.length_quote_le_yamlText Core.Reference.backend
    (show (controlKeyidFields n).keyid = some (List.replicate n '\x01') from rfl)
  have hlen : ((List.replicate n '\x01').flatMap quoteChar).length = n * 6 :=
    length_flatMap_replicate n
  have hge := Utf8.length_encode_ge (quoteYamlString (List.replicate n '\x01'))
  rw [quoteYamlString, List.length_cons, List.length_append, hlen] at hge
  have hge : n * 6 + [ '"' ].length + 1 ≤
      (asBytes (quoteYamlString (List.replicate n '\x01'))).length := hge
  omega

/-- Over the octet budget the emitted artifact is not transcoded back. -/
theorem not_transcoded_back {K : Backend} (hK : K.Lawful) {p : Bytes} (hp : PayloadStream p)
    {f : SignatureFields} (h : (asBytes (f.yamlText K)).length > signatureDocumentMaxBytes)
    (w : Bytes) :
    signedYamlStreamToProtoWire K (p ++ (marker .lf ++ asBytes (f.yamlText K))) ≠ some (.ok w) := by
  rw [signedYamlStreamToProtoWire_of_long_carrier (yamlDecompose_emitted hK hp f) h]
  exact fun heq => by cases heq

theorem longKeyid_not_read_back {n : Nat} (hlong : 16384 < n) (hfits : n < 2 ^ 30) :
    ∃ y, protoWireToSignedYamlStream Core.Reference.backend (wireOf [] (longKeyidFields n)) =
        some (.ok y) ∧
      ∀ w, signedYamlStreamToProtoWire Core.Reference.backend y ≠ some (.ok w) := by
  have hK := Core.Reference.backend_lawful
  have hsize : SignatureFields.keyidLength (longKeyidFields n).keyid +
      (longKeyidFields n).signature.length < 2 ^ 30 := by
    have hlen := length_asBytes_replicate (c := 'a') (by decide) n
    show (asBytes (List.replicate n 'a')).length + 0 < 2 ^ 30
    omega
  have hemits := emits_wireOf hK (p := []) (by decide) hsize
  refine ⟨_, protoWireToSignedYamlStream_emitted hK payloadStream_nil hemits,
    not_transcoded_back hK payloadStream_nil ?_⟩
  have hquote := SignatureFields.length_quote_le_yamlText Core.Reference.backend
    (show (longKeyidFields n).keyid = some (List.replicate n 'a') from rfl)
  have hge := length_le_quoteYamlString (List.replicate n 'a')
  rw [length_asBytes_replicate (by decide)] at hge
  show _ > 16 * 1024
  omega

theorem controlKeyid_not_read_back {n : Nat} (hlong : 2731 ≤ n) (hfits : n ≤ 4000) :
    ∃ w y, signedYamlStreamToProtoWire Core.Reference.backend (controlKeyidArtifact n) =
        some (.ok w) ∧
      protoWireToSignedYamlStream Core.Reference.backend w = some (.ok y) ∧
      ∀ w', signedYamlStreamToProtoWire Core.Reference.backend y ≠ some (.ok w') := by
  have hK := Core.Reference.backend_lawful
  have hsize : SignatureFields.keyidLength (controlKeyidFields n).keyid +
      (controlKeyidFields n).signature.length < 2 ^ 30 := by
    have hlen := length_asBytes_replicate (c := '\x01') (by decide) n
    show (asBytes (List.replicate n '\x01')).length + 0 < 2 ^ 30
    omega
  have hemits := emits_wireOf hK (p := []) (by decide) hsize
  have hcomp := components_yaml_unlines payloadStream_nil (show controlKeyidLines n ≠ [] from
    List.cons_ne_nil _ _) fun _ hl => clean_controlKeyidLine hl
  refine ⟨_, _, (signedYamlStreamToProtoWire_eq_ok_iff hK).mpr
      ⟨_, _, _, hcomp, yamlFields_controlKeyid hfits, hemits⟩,
    protoWireToSignedYamlStream_emitted hK payloadStream_nil hemits,
    not_transcoded_back hK payloadStream_nil ?_⟩
  have hge := length_controlKeyid_yamlText n
  show _ > 16 * 1024
  omega

/-- A wire that is transcoded to YAML and not back, and a YAML artifact that is
transcoded to protobuf and to YAML again, and not back once more. -/
theorem long_keyid_not_read_back :
    (∃ y, protoWireToSignedYamlStream Core.Reference.backend (wireOf [] (longKeyidFields 16385)) =
        some (.ok y) ∧
      ∀ w, signedYamlStreamToProtoWire Core.Reference.backend y ≠ some (.ok w)) ∧
    ∃ w y, signedYamlStreamToProtoWire Core.Reference.backend (controlKeyidArtifact 4000) =
        some (.ok w) ∧
      protoWireToSignedYamlStream Core.Reference.backend w = some (.ok y) ∧
      ∀ w', signedYamlStreamToProtoWire Core.Reference.backend y ≠ some (.ok w') :=
  ⟨longKeyid_not_read_back (by decide) (by decide),
    controlKeyid_not_read_back (by decide) (Nat.le_refl 4000)⟩

/-! ## Round trips -/

/-- The carrier is a YAML mapping that deserializes to `doc`. -/
def SaysDocument (c : Bytes) (doc : SignatureDocument) : Prop :=
  ∃ t es, c = asBytes t ∧ Yaml.readFlat t = some es ∧ SignatureDocument.ofEntries es = some doc

theorem saysDocument_yamlText {K : Backend} (hS : K.base64.Lawful)
    (hprobe : K.noyalib.ProbesYaml) (f : SignatureFields) :
    SaysDocument (asBytes (f.yamlText K)) (f.toDocument K.base64) :=
  ⟨_, _, rfl, SignatureFields.readFlat_yamlText hS hprobe f,
    SignatureFields.ofEntries_entries K.base64 f⟩

/-- The view of a carrier, from its fields. -/
theorem view_of_protoFields {K : Backend} {c : Bytes} {f : SignatureFields}
    (h : protoFields K c = some f) :
    viewSignatureCarrier K.buffa c = .ok ⟨[], f.alg.wireValue, f.signature, f.keyid⟩ := by
  cases carrierFields_eq_some_iff.mp (show carrierFields K .proto c = some f from h) with
  | proto hview halg =>
    obtain ⟨m, -, hv⟩ := viewSignatureCarrier_eq_ok_iff.mp hview
    rw [hview, hv]
    rw [hv] at halg
    rw [← AlgorithmId.wireValue_of_fromI32 halg]

/-- Main result on round trips: payload, algorithm number, key identifier and
signature survive the way from protobuf to YAML and back, after which YAML is a
fixed point; and payload and signature document survive the way from YAML to
protobuf and back. -/
theorem transcoding_round_trips {K : Backend} (hK : K.Lawful) (hprobe : K.noyalib.ProbesYaml) :
    (∀ w y w' : Bytes, protoWireToSignedYamlStream K w = some (.ok y) →
      signedYamlStreamToProtoWire K y = some (.ok w') →
      (∃ p c c' v, protoDecompose w = .ok (p, c) ∧ protoDecompose w' = .ok (p, c') ∧
        viewSignatureCarrier K.buffa c = .ok v ∧ viewSignatureCarrier K.buffa c' = .ok v) ∧
      protoWireToSignedYamlStream K w' = some (.ok y)) ∧
    ∀ a w : Bytes, signedYamlStreamToProtoWire K a = some (.ok w) →
      ∃ y p c c' doc, protoWireToSignedYamlStream K w = some (.ok y) ∧
        yamlDecompose a = .ok (p, c) ∧ yamlDecompose y = .ok (p, c') ∧
        parseSignatureDocument K c = .ok doc ∧ SaysDocument c' doc ∧
        (∀ doc', parseSignatureDocument K c' = .ok doc' → doc' = doc) ∧
        (CarrierWithinBudgets c' → parseSignatureDocument K c' = .ok doc) := by
  refine ⟨fun w y w' hy hw' => ?_, fun a w hw => ?_⟩
  · obtain ⟨p, c, f, hcomp, hf, hemits⟩ := (protoWireToSignedYamlStream_eq_ok_iff hK).mp hy
    cases hemits with
    | yaml hp =>
      obtain ⟨q, d, g, hcomp', hg, hemits'⟩ := (signedYamlStreamToProtoWire_eq_ok_iff hK).mp hw'
      rw [components_yaml_emitted hK hp f] at hcomp'
      cases hcomp'
      rw [eq_of_yamlFields_yamlText hK hg] at hemits'
      refine ⟨?_, protoWireToSignedYamlStream_emitted hK hp hemits'⟩
      cases hemits' with
      | proto hc' hw' =>
        exact ⟨p, c, _, _, protoDecompose_eq_ok_iff.mpr hcomp,
          protoDecompose_eq_ok_iff.mpr (components_proto_emitted hw'), view_of_protoFields hf,
          viewSignatureCarrier_encodeInner hK hc'⟩
  · obtain ⟨p, c, f, hcomp, hf, hemits⟩ := (signedYamlStreamToProtoWire_eq_ok_iff hK).mp hw
    have hp := payloadStream_of_components hcomp
    exact ⟨_, p, c, _, f.toDocument K.base64, protoWireToSignedYamlStream_emitted hK hp hemits,
      yamlDecompose_eq_ok_iff.mpr hcomp, yamlDecompose_emitted hK hp f,
      (yamlFields_eq_some_iff hK).mp hf, saysDocument_yamlText hK.base64 hprobe f,
      fun doc' hdoc' => SignatureFields.eq_of_parse_yamlText hK hdoc',
      fun hb => SignatureFields.parse_yamlText hK ((carrierWithinBudgets_iff hK.base64 hprobe).mp hb)⟩

/-- The signed empty payload, there and back. -/
theorem transcoding_round_trips_rfc8032 :
    ∃ w, signedYamlStreamToProtoWire Core.Reference.backend rfc8032Yaml = some (.ok w) ∧
      protoWireToSignedYamlStream Core.Reference.backend w = some (.ok rfc8032Yaml) := by
  have hK := Core.Reference.backend_lawful
  have hback := readsBack_emitted hK Core.Reference.noyalib_probesYaml (p := []) (by decide)
    (.yaml payloadStream_nil (f := rfc8032Fields))
  obtain ⟨w, hw⟩ := hback.within ((carrierWithinBudgets_iff
    hK.base64 Core.Reference.noyalib_probesYaml).mpr withinBudgets_rfc8032Fields)
  exact ⟨w, hw, ((transcoding_round_trips hK Core.Reference.noyalib_probesYaml).1 _ _ _
    protoWireToSignedYamlStream_rfc8032Wire hw).2⟩

end Signing
end YamlSigil
