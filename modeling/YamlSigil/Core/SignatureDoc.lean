/-
The strict signature document: bounded parsing and canonical emission.

`SignatureFields` is what a signature carrier says, in either form.  Its YAML
document is emitted as a flat mapping, one entry a line, so the parser returns the
document that was emitted when the emission is within the parser's budgets, and
never returns another one.
-/
import YamlSigil.Core.Backend
import YamlSigil.Core.Quote

namespace YamlSigil
namespace Core

open Format

/-! ## Parsing -/

def ensureSignatureDocumentByteBudget (bytes : Bytes) : Except CoreError Unit :=
  if bytes.length > signatureDocumentMaxBytes then
    .error (.signatureYaml "signature carrier exceeds the maximum supported byte length".toList)
  else .ok ()

def SignatureDocument.validateSchema (doc : SignatureDocument) : Except CoreError Unit :=
  if doc.schema ≠ schemaV1alpha1 then .error .schemaMismatch else .ok ()

/-- Parse one unauthenticated signature document with bounded resources. -/
def parseSignatureDocument (K : Backend) (bytes : Bytes) : Except CoreError SignatureDocument :=
  match ensureSignatureDocumentByteBudget bytes with
  | .error e => .error e
  | .ok () =>
    match fromUtf8 bytes with
    | none => .error .invalidUtf8
    | some text =>
      match K.noyalib.loadAll signatureDocumentParserConfig text with
      | .error e => .error (.signatureYaml e)
      | .ok documents =>
        if documents ≠ 1 then
          .error (.signatureYaml
            "signature carrier must contain exactly one YAML document".toList)
        else
          match K.noyalib.documentFromStr signatureDocumentParserConfig text with
          | .error e => .error (.signatureYaml e)
          | .ok doc => .ok doc

theorem parseSignatureDocument_eq_ok_iff {K : Backend} {b : Bytes} {d : SignatureDocument} :
    parseSignatureDocument K b = .ok d ↔
      b.length ≤ signatureDocumentMaxBytes ∧ ∃ t, b = asBytes t ∧
        K.noyalib.loadAll signatureDocumentParserConfig t = .ok 1 ∧
        K.noyalib.documentFromStr signatureDocumentParserConfig t = .ok d := by
  unfold parseSignatureDocument ensureSignatureDocumentByteBudget
  by_cases hlen : b.length > signatureDocumentMaxBytes
  · rw [if_pos hlen]
    exact ⟨fun h => (by cases h), fun h => absurd h.1 (by omega)⟩
  · rw [if_neg hlen]
    constructor
    · intro h
      cases ht : fromUtf8 b with
      | none =>
        rw [ht] at h
        cases h
      | some t =>
        simp only [ht] at h
        cases hload : K.noyalib.loadAll signatureDocumentParserConfig t with
        | error e =>
          rw [hload] at h
          cases h
        | ok documents =>
          simp only [hload] at h
          by_cases hone : documents ≠ 1
          · rw [if_pos hone] at h
            cases h
          · rw [if_neg hone] at h
            cases hd : K.noyalib.documentFromStr signatureDocumentParserConfig t with
            | error e =>
              rw [hd] at h
              cases h
            | ok d' =>
              rw [hd] at h
              cases h
              rw [not_not.mp hone] at hload
              exact ⟨Nat.not_lt.mp hlen, t, fromUtf8_eq_some_iff.mp ht, hload, hd⟩
    · intro h
      rcases h with ⟨-, t, hb, hload, hd⟩
      simp only [fromUtf8_eq_some_iff.mpr hb, hload, ne_eq, not_true_eq_false, if_false, hd]

/-- A flat mapping of at most four entries is within the other budgets. -/
theorem allows_of_le {t : Text} {es : List (Text × Text)} (hes : es.length ≤ 4)
    (hlen : (asBytes t).length ≤ signatureDocumentMaxBytes)
    (hscalars : scalarBytes es ≤ signatureDocumentMaxTotalScalarBytes) :
    signatureDocumentParserConfig.Allows t es := by
  have hset : ∀ {n m : Nat}, n ≤ m → Admits (some m) n := fun hnm k hk => by
    cases hk
    exact hnm
  exact ⟨hset hlen, hset hscalars, hset (Nat.le_trans hes (by decide)), hset (by decide),
    hset (show _ ≤ 128 by omega), hset (show _ ≤ 64 by omega), hset (by decide)⟩

theorem parse_of_spellsFlat {K : Backend} (hN : K.noyalib.FollowsYaml) {t : Text}
    {es : List (Text × Text)} {d : SignatureDocument} (hread : K.noyalib.SpellsFlat t es)
    (hdoc : SignatureDocument.ofEntries es = some d) (hes : es.length ≤ 4)
    (hlen : (asBytes t).length ≤ signatureDocumentMaxBytes)
    (hscalars : scalarBytes es ≤ signatureDocumentMaxTotalScalarBytes) :
    parseSignatureDocument K (asBytes t) = .ok d := by
  have hcfg := allows_of_le hes hlen hscalars
  exact parseSignatureDocument_eq_ok_iff.mpr
    ⟨hlen, t, rfl, hN.loads hread hdoc hcfg, hN.reads hread hdoc hcfg⟩

/-! ## Emission -/

/-- The probe reads the value back as a string.  An error selects quoting. -/
def plainYamlScalarRoundTripsAsString (K : Backend) (value : Text) : Bool :=
  match K.noyalib.stringFromStr signatureEmissionProbeConfig value with
  | .ok parsed => parsed == value
  | .error _ => false

/-- Serialize a canonical signature carrier. -/
def serializeSignatureDocument (K : Backend) (doc : SignatureDocument) : Except CoreError Text :=
  match doc.validateSchema with
  | .error e => .error e
  | .ok () =>
    if (AlgorithmId.fromYamlStr doc.alg).isNone then
      .error (.signatureYaml
        "signature document alg is not a canonical v1alpha1 algorithm".toList)
    else if (K.base64.decode doc.signature).isNone then .error .invalidBase64
    else
      let out := "schema: ".toList ++ doc.schema ++ "\nalg: ".toList ++ doc.alg ++ ['\n']
      let out :=
        match doc.keyid with
        | some keyid => out ++ "keyid: ".toList ++ quoteYamlString keyid ++ ['\n']
        | none => out
      let out := out ++ "signature: ".toList
      let out :=
        if plainYamlScalarRoundTripsAsString K doc.signature then out ++ doc.signature
        else out ++ quoteYamlString doc.signature
      .ok (out ++ ['\n'])

/-! ## What a carrier says -/

/-- The fields of a signature, in either form. -/
structure SignatureFields where
  alg : AlgorithmId
  keyid : Option Text
  signature : Bytes
deriving Repr, DecidableEq

namespace SignatureFields

def toDocument (S : Base64) (f : SignatureFields) : SignatureDocument where
  schema := schemaV1alpha1
  alg := f.alg.asYamlStr
  keyid := f.keyid
  signature := S.encode f.signature

/-- The fields of a document with the schema, an algorithm and a signature. -/
def ofDocument (S : Base64) (d : SignatureDocument) : Option SignatureFields := do
  if d.schema = schemaV1alpha1 then
    let alg ← AlgorithmId.fromYamlStr d.alg
    let signature ← S.decode d.signature
    some { alg, keyid := d.keyid, signature }
  else none

theorem ofDocument_eq_some_iff {S : Base64} (hS : S.Lawful) {d : SignatureDocument}
    {f : SignatureFields} : ofDocument S d = some f ↔ d = f.toDocument S := by
  constructor
  · intro h
    unfold ofDocument at h
    by_cases hschema : d.schema = schemaV1alpha1
    · rw [if_pos hschema] at h
      obtain ⟨a, ha, h⟩ := Option.bind_eq_some_iff.mp h
      obtain ⟨o, ho, h⟩ := Option.bind_eq_some_iff.mp h
      have hf := Option.some.inj h
      subst hf
      obtain ⟨schema, alg, keyid, signature⟩ := d
      have halg : alg = a.asYamlStr := AlgorithmId.asYamlStr_of_fromYamlStr ha
      have hsig : S.encode o = signature := hS.encode_decode ho
      have hschema : schema = schemaV1alpha1 := hschema
      subst halg hsig hschema
      rfl
    · rw [if_neg hschema] at h
      cases h
  · intro h
    subst h
    unfold ofDocument toDocument
    rw [if_pos rfl, AlgorithmId.fromYamlStr_asYamlStr, Option.bind_eq_bind, Option.bind_some,
      hS.decode_encode]
    rfl

def keyidEntries : Option Text → List (Text × Text)
  | some keyid => [("keyid".toList, keyid)]
  | none => []

def entries (S : Base64) (f : SignatureFields) : List (Text × Text) :=
  [("schema".toList, schemaV1alpha1), ("alg".toList, f.alg.asYamlStr)] ++
    (keyidEntries f.keyid ++ [("signature".toList, S.encode f.signature)])

theorem ofEntries_entries (S : Base64) (f : SignatureFields) :
    SignatureDocument.ofEntries (f.entries S) = some (f.toDocument S) := by
  obtain ⟨a, keyid, o⟩ := f
  cases keyid with
  | none =>
    unfold SignatureDocument.ofEntries
    rw [if_pos ⟨by show List.Nodup (List.map _ [_, _, _]); simp, by
      show ∀ k ∈ List.map _ [_, _, _], _; simp; decide⟩]
    rfl
  | some keyid =>
    unfold SignatureDocument.ofEntries
    rw [if_pos ⟨by show List.Nodup (List.map _ [_, _, _, _]); simp, by
      show ∀ k ∈ List.map _ [_, _, _, _], _; simp; decide⟩]
    rfl

/-- The spelling of the signature: plain where the probe allows it. -/
def signatureScalar (K : Backend) (value : Text) : Text :=
  if plainYamlScalarRoundTripsAsString K value then value else quoteYamlString value

def keyidLines : Option Text → List Text
  | some keyid => [Yaml.entryLine "keyid".toList (quoteYamlString keyid)]
  | none => []

def lines (K : Backend) (f : SignatureFields) : List Text :=
  [Yaml.entryLine "schema".toList schemaV1alpha1, Yaml.entryLine "alg".toList f.alg.asYamlStr] ++
    (keyidLines f.keyid ++
      [Yaml.entryLine "signature".toList (signatureScalar K (K.base64.encode f.signature))])

/-- The canonical carrier text. -/
def yamlText (K : Backend) (f : SignatureFields) : Text := Yaml.unlines (f.lines K)

theorem serialize_toDocument {K : Backend} (hS : K.base64.Lawful) (f : SignatureFields) :
    serializeSignatureDocument K (f.toDocument K.base64) = .ok (f.yamlText K) := by
  have hschema : (f.toDocument K.base64).validateSchema = .ok () := if_neg (by simp [toDocument])
  have halg : ¬ (AlgorithmId.fromYamlStr (f.toDocument K.base64).alg).isNone = true := by
    show ¬ (AlgorithmId.fromYamlStr f.alg.asYamlStr).isNone = true
    rw [AlgorithmId.fromYamlStr_asYamlStr]
    exact Bool.false_ne_true
  have hsig : ¬ (K.base64.decode (f.toDocument K.base64).signature).isNone = true := by
    show ¬ (K.base64.decode (K.base64.encode f.signature)).isNone = true
    rw [hS.decode_encode]
    exact Bool.false_ne_true
  unfold serializeSignatureDocument
  rw [hschema]
  simp only
  rw [if_neg halg, if_neg hsig]
  unfold yamlText lines signatureScalar toDocument keyidLines
  by_cases hp : plainYamlScalarRoundTripsAsString K (K.base64.encode f.signature) = true
  · rw [if_pos hp, if_pos hp]
    cases f.keyid <;> simp [Yaml.unlines, Yaml.entryLine]
  · rw [if_neg hp, if_neg hp]
    cases f.keyid <;> simp [Yaml.unlines, Yaml.entryLine]

/-! ## The emission is read back -/

theorem isPlainChar_of_isLetter {c : Char} (h : Base64Url.IsLetter c) :
    Yaml.isPlainChar c = true := by
  obtain ⟨n, hn, hc⟩ := h
  rw [← hc]
  exact (by decide : ∀ n < 64, Yaml.isPlainChar (Base64Url.sextet n) = true) n hn

theorem isPlainChar_of_mem_encode {S : Base64} (hS : S.Lawful) {o : Bytes} :
    ∀ c ∈ S.encode o, Yaml.isPlainChar c = true := fun _ hc =>
  isPlainChar_of_isLetter (hS.alphabet hc)

/-- What the emitted scalar is. -/
theorem signatureScalar_cases (K : Backend) (value : Text) :
    (signatureScalar K value = value ∧
      K.noyalib.stringFromStr signatureEmissionProbeConfig value = .ok value) ∨
    signatureScalar K value = quoteYamlString value := by
  unfold signatureScalar
  by_cases hp : plainYamlScalarRoundTripsAsString K value = true
  · refine .inl ⟨if_pos hp, ?_⟩
    unfold plainYamlScalarRoundTripsAsString at hp
    cases hparsed : K.noyalib.stringFromStr signatureEmissionProbeConfig value with
    | error e =>
      rw [hparsed] at hp
      cases hp
    | ok parsed =>
      rw [hparsed] at hp
      have heq : parsed = value := eq_of_beq hp
      rw [heq]
  · exact .inr (if_neg hp)

theorem spells_quoteYamlString (N : Noyalib) (value : Text) :
    N.Spells (quoteYamlString value) value :=
  .quoted (Yaml.Interior.flatMap interior_quoteChar value) (readScalar_quoteYamlString value)

theorem spells_signatureScalar {K : Backend} (hS : K.base64.Lawful) (o : Bytes) :
    K.noyalib.Spells (signatureScalar K (K.base64.encode o)) (K.base64.encode o) := by
  rcases signatureScalar_cases K (K.base64.encode o) with ⟨hs, hp⟩ | hs
  · rw [hs]
    exact .probed (isPlainChar_of_mem_encode hS) hp
  · rw [hs]
    exact spells_quoteYamlString _ _

theorem isPlainString_asYamlStr (a : AlgorithmId) : Yaml.isPlainString a.asYamlStr = true := by
  cases a <;> decide

theorem forall₂_lines {K : Backend} (hS : K.base64.Lawful) (f : SignatureFields) :
    List.Forall₂ K.noyalib.SpellsEntry (f.lines K) (f.entries K.base64) := by
  have hsig : K.noyalib.SpellsEntry
      (Yaml.entryLine "signature".toList (signatureScalar K (K.base64.encode f.signature)))
      ("signature".toList, K.base64.encode f.signature) :=
    .line (by decide) (spells_signatureScalar hS _)
  refine .cons (.line (by decide) (.plain (by decide)))
    (.cons (.line (by decide) (.plain (isPlainString_asYamlStr f.alg))) ?_)
  unfold keyidLines keyidEntries
  cases f.keyid with
  | none => exact .cons hsig .nil
  | some keyid =>
    exact .cons (.line (by decide) (spells_quoteYamlString _ keyid)) (.cons hsig .nil)

theorem spellsFlat_yamlText {K : Backend} (hS : K.base64.Lawful) (f : SignatureFields) :
    K.noyalib.SpellsFlat (f.yamlText K) (f.entries K.base64) := by
  refine .lines ?_ (forall₂_lines hS f)
  unfold lines
  simp

/-- With a probe that YAML 1.2 agrees with, so does the emission. -/
theorem readFlat_yamlText {K : Backend} (hS : K.base64.Lawful) (hprobe : K.noyalib.ProbesYaml)
    (f : SignatureFields) : Yaml.readFlat (f.yamlText K) = some (f.entries K.base64) :=
  (spellsFlat_yamlText hS f).readFlat hprobe

/-! ## Budgets -/

/-- The emission is within the two budgets that emission does not look at. -/
structure WithinBudgets (K : Backend) (f : SignatureFields) : Prop where
  carrier : (asBytes (f.yamlText K)).length ≤ signatureDocumentMaxBytes
  scalars : scalarBytes (f.entries K.base64) ≤ signatureDocumentMaxTotalScalarBytes

theorem length_entries_le (S : Base64) (f : SignatureFields) : (f.entries S).length ≤ 4 := by
  unfold entries keyidEntries
  cases f.keyid <;> simp

theorem parse_yamlText {K : Backend} (hK : K.Lawful) {f : SignatureFields}
    (h : f.WithinBudgets K) :
    parseSignatureDocument K (asBytes (f.yamlText K)) = .ok (f.toDocument K.base64) :=
  parse_of_spellsFlat hK.noyalib (spellsFlat_yamlText hK.base64 f) (ofEntries_entries K.base64 f)
    (length_entries_le K.base64 f) h.carrier h.scalars

/-- Whatever the budgets, the parser never reads another document. -/
theorem eq_of_parse_yamlText {K : Backend} (hK : K.Lawful) {f : SignatureFields}
    {d : SignatureDocument} (h : parseSignatureDocument K (asBytes (f.yamlText K)) = .ok d) :
    d = f.toDocument K.base64 := by
  obtain ⟨-, t, ht, -, hd⟩ := parseSignatureDocument_eq_ok_iff.mp h
  have heq : f.yamlText K = t := Utf8.encode_injective ht
  rw [← heq] at hd
  have hsound := hK.noyalib.sound (spellsFlat_yamlText hK.base64 f) hd
  rw [ofEntries_entries] at hsound
  exact (Option.some.inj hsound).symm

/-! ## Sizes -/

theorem length_asBytes_unlines (ls : List Text) :
    (asBytes (Yaml.unlines ls)).length = (ls.map fun l => (asBytes l).length + 1).sum := by
  induction ls with
  | nil => rfl
  | cons l ls ih =>
    have hcons : Yaml.unlines (l :: ls) = l ++ (['\n'] ++ Yaml.unlines ls) := by
      unfold Yaml.unlines
      rw [List.flatMap_cons, List.append_assoc]
    have hlf : (asBytes ['\n']).length = 1 := by decide
    rw [hcons, asBytes_append, asBytes_append, List.length_append, List.length_append, ih, hlf,
      List.map_cons, List.sum_cons]
    omega

theorem length_asBytes_entryLine (key scalar : Text) :
    (asBytes (Yaml.entryLine key scalar)).length =
      (asBytes key).length + 2 + (asBytes scalar).length := by
  have hsep : (asBytes [':', ' ']).length = 2 := by decide
  have hcons : Yaml.entryLine key scalar = key ++ ([':', ' '] ++ scalar) := rfl
  rw [hcons, asBytes_append, asBytes_append, List.length_append, List.length_append, hsep]
  omega

theorem length_asBytes_encode {S : Base64} (hS : S.Lawful) (o : Bytes) :
    (asBytes (S.encode o)).length = (4 * o.length + 2) / 3 := by
  rw [← hS.length_encode o]
  apply Utf8.length_encode_ascii
  intro c hc
  obtain ⟨n, hn, hn'⟩ := hS.alphabet hc
  rw [← hn']
  exact (by decide : ∀ n < 64, (Base64Url.sextet n).toNat < 128) n hn

theorem length_signatureScalar_le (K : Backend) (value : Text) :
    (asBytes (signatureScalar K value)).length ≤ 6 * (asBytes value).length + 2 := by
  unfold signatureScalar
  by_cases hp : plainYamlScalarRoundTripsAsString K value = true
  · rw [if_pos hp]
    omega
  · rw [if_neg hp]
    exact length_quoteYamlString value

theorem length_asYamlStr_le (a : AlgorithmId) : (asBytes a.asYamlStr).length ≤ 36 := by
  cases a <;> decide

/-- The octets of the key identifier. -/
def keyidLength (keyid : Option Text) : Nat := (asBytes (keyid.getD [])).length

theorem length_keyidLines_le (keyid : Option Text) :
    ((keyidLines keyid).map fun l => (asBytes l).length + 1).sum ≤ 6 * keyidLength keyid + 10 := by
  unfold keyidLines
  cases keyid with
  | none => exact Nat.zero_le _
  | some keyid =>
    have hkey : (asBytes "keyid".toList).length = 5 := by decide
    have hquote := length_quoteYamlString keyid
    show (asBytes (Yaml.entryLine "keyid".toList (quoteYamlString keyid))).length + 1 + 0 ≤
      6 * (asBytes keyid).length + 10
    rw [length_asBytes_entryLine, hkey]
    omega

theorem scalarBytes_keyidEntries_le (keyid : Option Text) :
    scalarBytes (keyidEntries keyid) ≤ keyidLength keyid + 5 := by
  unfold keyidEntries
  cases keyid with
  | none => exact Nat.zero_le _
  | some keyid =>
    have hkey : (asBytes "keyid".toList).length = 5 := by decide
    show (asBytes "keyid".toList).length + (asBytes keyid).length + 0 ≤ (asBytes keyid).length + 5
    omega

theorem scalarBytes_append (es es' : List (Text × Text)) :
    scalarBytes (es ++ es') = scalarBytes es + scalarBytes es' := by
  unfold scalarBytes
  rw [List.map_append, List.sum_append]

/-- What a verifier can accept is within the budgets. -/
theorem withinBudgets_of_verifiable {K : Backend} (hS : K.base64.Lawful) {f : SignatureFields}
    (hk : keyidLength f.keyid ≤ 1024) (hs : f.signature.length = 64) : f.WithinBudgets K := by
  have hkl := length_keyidLines_le f.keyid
  have hke := scalarBytes_keyidEntries_le f.keyid
  have halg := length_asYamlStr_le f.alg
  have henc := length_asBytes_encode hS f.signature
  have hsig := length_signatureScalar_le K (K.base64.encode f.signature)
  have h1 : (asBytes "schema".toList).length = 6 := by decide
  have h2 : (asBytes schemaV1alpha1).length = 27 := by decide
  have h3 : (asBytes "alg".toList).length = 3 := by decide
  have h4 : (asBytes "signature".toList).length = 9 := by decide
  constructor
  · unfold yamlText lines
    rw [length_asBytes_unlines, List.map_append, List.map_append, List.sum_append, List.sum_append]
    simp only [List.map_cons, List.map_nil, List.sum_cons, List.sum_nil, length_asBytes_entryLine,
      h1, h2, h3, h4]
    show _ ≤ 16 * 1024
    omega
  · unfold entries
    rw [scalarBytes_append, scalarBytes_append]
    simp only [scalarBytes, List.map_cons, List.map_nil, List.sum_cons, List.sum_nil, h1, h2, h3,
      h4] at hke ⊢
    show _ ≤ 8 * 1024
    omega

/-- The quoted key identifier alone bounds the emission from below. -/
theorem length_quote_le_yamlText (K : Backend) {f : SignatureFields} {keyid : Text}
    (hk : f.keyid = some keyid) :
    (asBytes (quoteYamlString keyid)).length ≤ (asBytes (f.yamlText K)).length := by
  unfold yamlText lines keyidLines
  rw [hk, length_asBytes_unlines, List.map_append, List.map_append, List.sum_append,
    List.sum_append]
  simp only [List.map_cons, List.map_nil, List.sum_cons, List.sum_nil, length_asBytes_entryLine]
  omega

end SignatureFields

end Core
end YamlSigil
