/-
What the serializer emits, whatever it is given.

A key identifier is an arbitrary text, and it ends up in a format of lines, in
front of which the composer puts a marker line.  None of its characters gets out
of the scalar it is quoted in.
-/
import YamlSigil.Core.SignatureKeys
import YamlSigil.Signing.Emission

namespace YamlSigil
namespace Signing

open Format YamlSigil.Core Transcription

/-! ## Which documents are serialized -/

theorem serializeSignatureDocument_eq_ok {K : Backend} (hS : K.base64.Lawful) {doc : SignatureDocument}
    {text : Text} (h : serializeSignatureDocument K doc = .ok text) :
    ∃ f : SignatureFields, doc = f.toDocument K.base64 ∧ text = f.yamlText K := by
  have hfields : ∃ f, SignatureFields.ofDocument K.base64 doc = some f := by
    unfold serializeSignatureDocument SignatureDocument.validateSchema at h
    by_cases hschema : doc.schema ≠ schemaV1alpha1
    · rw [if_pos hschema] at h
      cases h
    · rw [if_neg hschema] at h
      simp only at h
      cases halg : AlgorithmId.fromYamlStr doc.alg with
      | none =>
        rw [halg] at h
        cases h
      | some a =>
        cases hsig : K.base64.decode doc.signature with
        | none =>
          rw [halg, hsig] at h
          cases h
        | some o =>
          unfold SignatureFields.ofDocument
          rw [if_pos (not_not.mp hschema), halg, hsig]
          exact ⟨_, rfl⟩
  obtain ⟨f, hf⟩ := hfields
  have hdoc := (SignatureFields.ofDocument_eq_some_iff hS).mp hf
  refine ⟨f, hdoc, ?_⟩
  rw [hdoc, SignatureFields.serialize_toDocument hS] at h
  exact (Except.ok.inj h).symm

/-! ## No line holds a control character -/

theorem not_isControl_of_isPlainString {t : Text} (h : Yaml.isPlainString t = true) :
    ∀ c ∈ t, ¬ Yaml.IsControl c := fun _ hc =>
  (isPlainChar_ascii (Yaml.isPlainChar_of_isPlainString h _ hc)).1

theorem not_isControl_entryLine {key scalar : Text} (hk : ∀ c ∈ key, ¬ Yaml.IsControl c)
    (hs : ∀ c ∈ scalar, ¬ Yaml.IsControl c) :
    ∀ c ∈ Yaml.entryLine key scalar, ¬ Yaml.IsControl c := by
  intro c hc
  rcases List.mem_append.mp hc with hc | hc
  · exact hk c hc
  · rcases List.mem_cons.mp hc with hc | hc
    · rw [hc]
      decide
    · rcases List.mem_cons.mp hc with hc | hc
      · rw [hc]
        decide
      · exact hs c hc

theorem not_isControl_signatureScalar {K : Backend} (hS : K.base64.Lawful) (o : Bytes) :
    ∀ c ∈ SignatureFields.signatureScalar K (K.base64.encode o), ¬ Yaml.IsControl c := by
  rcases SignatureFields.signatureScalar_cases K (K.base64.encode o) with ⟨hs, -⟩ | hs
  · rw [hs]
    exact fun c hc => (isPlainChar_ascii (SignatureFields.isPlainChar_of_mem_encode hS c hc)).1
  · rw [hs]
    exact not_isControl_quoteYamlString _

theorem not_isControl_lines {K : Backend} (hS : K.base64.Lawful) (f : SignatureFields) :
    ∀ l ∈ f.lines K, ∀ c ∈ l, ¬ Yaml.IsControl c := by
  have hkey : ∀ {key}, Yaml.isPlainString key = true → ∀ c ∈ key, ¬ Yaml.IsControl c := fun h =>
    not_isControl_of_isPlainString h
  intro l hl
  simp only [SignatureFields.lines, SignatureFields.keyidLines, List.mem_append, List.mem_cons,
    List.not_mem_nil, or_false] at hl
  rcases hl with (hl | hl) | hl | hl
  · rw [hl]
    exact not_isControl_entryLine (hkey (by decide)) (hkey (by decide))
  · rw [hl]
    exact not_isControl_entryLine (hkey (by decide))
      (hkey (SignatureFields.isPlainString_asYamlStr f.alg))
  · cases hk : f.keyid with
    | none =>
      rw [hk] at hl
      cases hl
    | some keyid =>
      rw [hk] at hl
      rw [List.mem_singleton.mp hl]
      exact not_isControl_entryLine (hkey (by decide)) (not_isControl_quoteYamlString keyid)
  · rw [hl]
    exact not_isControl_entryLine (hkey (by decide)) (not_isControl_signatureScalar hS _)

/-- A control octet comes from a control character. -/
theorem not_mem_asBytes {t : Text} (h : ∀ c ∈ t, ¬ Yaml.IsControl c) {b : UInt8}
    (hb : b.toNat < 0x20) : b ∉ asBytes t := by
  intro hmem
  obtain ⟨p, s, hps⟩ := List.append_of_mem hmem
  obtain ⟨t₁, c, t₂, ht, -, hc, -⟩ := Utf8.encode_eq_append_cons (by omega) hps
  exact h c (by rw [ht]; simp) (.inl (by omega))

/-! ## The emitted carrier -/

/-- The entries of a document, in the order of emission. -/
def documentEntries (doc : SignatureDocument) : List (Text × Text) :=
  [("schema".toList, doc.schema), ("alg".toList, doc.alg)] ++
    (SignatureFields.keyidEntries doc.keyid ++ [("signature".toList, doc.signature)])

/-- The lines of a document whose signature is spelled as `scalar`. -/
def carrierLines (doc : SignatureDocument) (scalar : Text) : List Text :=
  ["schema: ".toList ++ doc.schema, "alg: ".toList ++ doc.alg] ++
    ((doc.keyid.map fun keyid => "keyid: ".toList ++ quoteYamlString keyid).toList ++
      ["signature: ".toList ++ scalar])

/-- What a reader of the emitted text can rely on. -/
structure CleanCarrier (N : Noyalib) (doc : SignatureDocument) (text : Text) : Prop where
  lines : ∃ scalar, (scalar = doc.signature ∨ scalar = quoteYamlString doc.signature) ∧
    text = Yaml.unlines (carrierLines doc scalar) ∧
    ∀ line ∈ carrierLines doc scalar, 0x0A ∉ asBytes line ∧ 0x0D ∉ asBytes line
  no_marker : containsConstrainedMarker (asBytes text) = false
  utf8 : fromUtf8 (asBytes text) = some text
  ne_nil : asBytes text ≠ []
  composes : ∀ payload, validatePayloadStream payload = .ok () →
    ∃ s, compose ⟨payload, asBytes text, .yaml⟩ = some (.success s)
  reads : Yaml.readFlat text = some (documentEntries doc)
  keys : (asBytes text).length ≤ signatureDocumentMaxBytes →
    signatureDocumentTopLevelKeys N (asBytes text) =
      .ok ((documentEntries doc).map Prod.fst).toFinset

section
variable {K : Backend} (hS : K.base64.Lawful) (f : SignatureFields)

theorem carrierLines_toDocument :
    carrierLines (f.toDocument K.base64)
      (SignatureFields.signatureScalar K (K.base64.encode f.signature)) = f.lines K := by
  obtain ⟨a, keyid, o⟩ := f
  cases keyid <;> rfl

theorem documentEntries_toDocument :
    documentEntries (f.toDocument K.base64) = f.entries K.base64 := rfl

/-- The scan finds the keys of the entries. -/
theorem forall₂_lineKey (hN : K.noyalib.ReadsPlain) :
    List.Forall₂ (fun l (e : Text × Text) => lineKey K.noyalib l = some e.1) (f.lines K)
      (f.entries K.base64) := by
  have hkey : ∀ {key}, Yaml.isPlainString key = true → ∀ scalar,
      lineKey K.noyalib (Yaml.entryLine key scalar) = some key := fun hk scalar =>
    lineKey_entryLine hN hk scalar
  refine .cons (hkey (by decide) _) (.cons (hkey (by decide) _) ?_)
  unfold SignatureFields.keyidLines SignatureFields.keyidEntries
  cases f.keyid with
  | none => exact .cons (hkey (by decide) _) .nil
  | some keyid => exact .cons (hkey (by decide) _) (.cons (hkey (by decide) _) .nil)

include hS

theorem topLevelKeysFlatLineScan_yamlText (hN : K.noyalib.ReadsPlain) :
    topLevelKeysFlatLineScan K.noyalib (f.yamlText K) =
      ((f.entries K.base64).map Prod.fst).toFinset := by
  have hclean := not_isControl_lines hS f
  have hlines : strLines (f.yamlText K) = f.lines K :=
    strLines_unlines (fun l hl hc => hclean l hl _ hc (by decide))
      fun l hl hc => hclean l hl _ hc (by decide)
  ext k
  rw [mem_topLevelKeysFlatLineScan, hlines, List.mem_toFinset, List.mem_map]
  have hkeys := forall₂_lineKey f hN
  generalize f.lines K = ls at hkeys
  generalize f.entries K.base64 = es at hkeys
  clear hlines hclean
  induction hkeys with
  | nil => simp
  | cons hle _ ih =>
    simp only [List.mem_cons, exists_eq_or_imp, ih, hle, Option.some.injEq]

end

/-- Main result on emission: what the serializer emits is the three or four lines
of its document and nothing else, in front of any payload and to any reader. -/
theorem serialized_carrier_clean {K : Backend} (hS : K.base64.Lawful)
    (hprobe : K.noyalib.ProbesYaml) (hN : K.noyalib.ReadsPlain) {doc : SignatureDocument}
    {text : Text} (h : serializeSignatureDocument K doc = .ok text) :
    CleanCarrier K.noyalib doc text := by
  obtain ⟨f, hdoc, htext⟩ := serializeSignatureDocument_eq_ok hS h
  rw [hdoc, htext]
  have hmarker := not_hasMarker_yamlText hS f
  refine ⟨⟨SignatureFields.signatureScalar K (K.base64.encode f.signature), ?_, ?_, ?_⟩, ?_,
    Utf8.decode_encode _, asBytes_unlines_ne_nil (lines_ne_nil K f), fun p hp => ?_, ?_,
    fun hlen => ?_⟩
  · rw [SignatureFields.signatureScalar]
    by_cases hp : plainYamlScalarRoundTripsAsString K (K.base64.encode f.signature) = true
    · exact .inl (if_pos hp)
    · exact .inr (if_neg hp)
  · rw [carrierLines_toDocument]
    rfl
  · intro line hline
    rw [carrierLines_toDocument] at hline
    have hclean := not_isControl_lines hS f line hline
    exact ⟨not_mem_asBytes hclean (by decide), not_mem_asBytes hclean (by decide)⟩
  · rw [← Bool.not_eq_true, containsConstrainedMarker_iff]
    exact hmarker
  · exact ⟨_, composeYaml_eq_success_iff.mpr
      ⟨validatePayloadStream_eq_ok_iff.mp hp, hmarker, rfl⟩⟩
  · rw [documentEntries_toDocument]
    exact SignatureFields.readFlat_yamlText hS hprobe f
  · rw [signatureDocumentTopLevelKeys_asBytes K.noyalib hlen,
      topLevelKeysFlatLineScan_yamlText hS f hN]
    rfl

/-- A key identifier that would end its line and start a marker line. -/
theorem serialized_carrier_clean_marker :
    ∃ text, serializeSignatureDocument Core.Reference.backend
        ⟨schemaV1alpha1, AlgorithmId.ed25519.asYamlStr, some "\"\n---\nalg: x".toList,
          "AA".toList⟩ = .ok text ∧
      containsConstrainedMarker (asBytes text) = false := by
  have hser : serializeSignatureDocument Core.Reference.backend
      ⟨schemaV1alpha1, AlgorithmId.ed25519.asYamlStr, some "\"\n---\nalg: x".toList,
        "AA".toList⟩ = .ok (Yaml.unlines ["schema: ".toList ++ schemaV1alpha1,
          "alg: ".toList ++ AlgorithmId.ed25519.asYamlStr,
          "keyid: \"\\\"\\n---\\nalg: x\"".toList, "signature: AA".toList]) := by
    decide +kernel
  exact ⟨_, hser, (serialized_carrier_clean Core.Reference.base64_lawful
    Core.Reference.noyalib_probesYaml Core.Reference.noyalib_readsPlain hser).no_marker⟩

end Signing
end YamlSigil
