/-
The libraries behind the signature carriers, as parameters.

The YAML parser, the base64url codec and the protobuf decoder are not part of
the repository.  `Backend` holds the functions the code calls, and
`Backend.Lawful` says what the code relies on: that the parser, under the settings
of the code, reads the flat mappings that emission spells as long as they stay
within the configured budgets, that the codec is a codec, and that the decoder
reads proto3.  `reference` is a backend that does so.
-/
import YamlSigil.Core.Pb.Proto3
import YamlSigil.Format.Yaml
import YamlSigil.Format.Base64Url

namespace YamlSigil
namespace Core

open Format

/-! ## Signature documents -/

/-- The signature mapping in transport form. -/
structure SignatureDocument where
  schema : Text
  alg : Text
  keyid : Option Text
  signature : Text
deriving Repr, DecidableEq

/-- Top-level keys allowed in a signature document. -/
def tierATopLevelKeys : List Text :=
  ["schema".toList, "alg".toList, "keyid".toList, "signature".toList]

/-- The deserialized mapping: no key twice, no unknown key, and every key but
`keyid` is there. -/
def SignatureDocument.ofEntries (es : List (Text × Text)) : Option SignatureDocument :=
  if (es.map Prod.fst).Nodup ∧ ∀ k ∈ es.map Prod.fst, k ∈ tierATopLevelKeys then do
    let schema ← es.lookup "schema".toList
    let alg ← es.lookup "alg".toList
    let signature ← es.lookup "signature".toList
    some { schema, alg, keyid := es.lookup "keyid".toList, signature }
  else none

/-! ## The YAML parser -/

inductive DuplicateKeyPolicy where
  | error
deriving Repr, DecidableEq

inductive MergeKeyPolicy where
  | asOrdinary
deriving Repr, DecidableEq

inductive Policy where
  | denyAnchors
  | denyTags
deriving Repr, DecidableEq

inductive YamlVersion where
  | v1_2
deriving Repr, DecidableEq

/-- The settings the code makes; `none` leaves a setting at the parser's default. -/
structure ParserConfig where
  version : Option YamlVersion := none
  noSchema : Option Bool := none
  plainScalarStrings : Option Bool := none
  maxDocumentLength : Option Nat := none
  maxDepth : Option Nat := none
  maxAliasExpansions : Option Nat := none
  maxMappingKeys : Option Nat := none
  maxSequenceLength : Option Nat := none
  maxEvents : Option Nat := none
  maxNodes : Option Nat := none
  maxTotalScalarBytes : Option Nat := none
  maxDocuments : Option Nat := none
  maxMergeKeys : Option Nat := none
  /-- In hundredths. -/
  aliasAnchorRatio : Option Nat := none
  duplicateKeyPolicy : Option DuplicateKeyPolicy := none
  mergeKeyPolicy : Option MergeKeyPolicy := none
  policies : List Policy := []
deriving Repr, DecidableEq

/-- The octets of all decoded scalars of a flat mapping. -/
def scalarBytes (es : List (Text × Text)) : Nat :=
  (es.map fun e => (asBytes e.1).length + (asBytes e.2).length).sum

/-- A limit that is set is at least `n`. -/
def Admits (limit : Option Nat) (n : Nat) : Prop := ∀ m ∈ limit, n ≤ m

instance (limit : Option Nat) (n : Nat) : Decidable (Admits limit n) :=
  match limit with
  | none => isTrue (fun _ h => by cases h)
  | some m => decidable_of_iff (n ≤ m)
      ⟨fun h _ hm => Option.some.inj hm ▸ h, fun h => h m rfl⟩

/-- The text of a flat mapping is within the budgets: a stream of one document
with one mapping of `es.length` keys. -/
structure ParserConfig.Allows (cfg : ParserConfig) (t : Text) (es : List (Text × Text)) : Prop where
  length : Admits cfg.maxDocumentLength (asBytes t).length
  scalars : Admits cfg.maxTotalScalarBytes (scalarBytes es)
  keys : Admits cfg.maxMappingKeys es.length
  depth : Admits cfg.maxDepth 2
  events : Admits cfg.maxEvents (2 * es.length + 6)
  nodes : Admits cfg.maxNodes (2 * es.length + 1)
  documents : Admits cfg.maxDocuments 1

instance (cfg : ParserConfig) (t : Text) (es : List (Text × Text)) : Decidable (cfg.Allows t es) :=
  decidable_of_iff
    (Admits cfg.maxDocumentLength (asBytes t).length ∧
      Admits cfg.maxTotalScalarBytes (scalarBytes es) ∧
      Admits cfg.maxMappingKeys es.length ∧ Admits cfg.maxDepth 2 ∧
      Admits cfg.maxEvents (2 * es.length + 6) ∧ Admits cfg.maxNodes (2 * es.length + 1) ∧
      Admits cfg.maxDocuments 1)
    ⟨fun ⟨a, b, c, d, e, f, g⟩ => ⟨a, b, c, d, e, f, g⟩,
      fun h => ⟨h.length, h.scalars, h.keys, h.depth, h.events, h.nodes, h.documents⟩⟩

/-! ## Its settings -/

/-- The complete carrier, with comments and scalar spellings. -/
def signatureDocumentMaxBytes : Nat := 16 * 1024
def signatureDocumentMaxDepth : Nat := 16
def signatureDocumentMaxAliasExpansions : Nat := 0
def signatureDocumentMaxMappingKeys : Nat := 8
def signatureDocumentMaxSequenceLength : Nat := 16
def signatureDocumentMaxEvents : Nat := 128
def signatureDocumentMaxNodes : Nat := 64
/-- All decoded scalars of one document together. -/
def signatureDocumentMaxTotalScalarBytes : Nat := 8 * 1024
def signatureDocumentMaxDocuments : Nat := 1
def signatureDocumentMaxMergeKeys : Nat := 8
def signatureEmissionProbeMaxBytes : Nat := 64 * 1024 * 1024

def signatureDocumentParserConfig : ParserConfig where
  maxDocumentLength := some signatureDocumentMaxBytes
  maxDepth := some signatureDocumentMaxDepth
  maxAliasExpansions := some signatureDocumentMaxAliasExpansions
  maxMappingKeys := some signatureDocumentMaxMappingKeys
  maxSequenceLength := some signatureDocumentMaxSequenceLength
  maxEvents := some signatureDocumentMaxEvents
  maxNodes := some signatureDocumentMaxNodes
  maxTotalScalarBytes := some signatureDocumentMaxTotalScalarBytes
  maxDocuments := some signatureDocumentMaxDocuments
  maxMergeKeys := some signatureDocumentMaxMergeKeys
  aliasAnchorRatio := some 100
  duplicateKeyPolicy := some .error
  mergeKeyPolicy := some .asOrdinary
  policies := [.denyAnchors, .denyTags]

def signatureEmissionProbeConfig : ParserConfig where
  version := some .v1_2
  noSchema := some false
  plainScalarStrings := some false
  maxDocumentLength := some signatureEmissionProbeMaxBytes
  maxTotalScalarBytes := some signatureEmissionProbeMaxBytes
  maxDepth := some 1
  maxEvents := some 8
  maxNodes := some 1
  maxDocuments := some 1
  maxAliasExpansions := some 0
  maxMappingKeys := some 0
  maxSequenceLength := some 0
  maxMergeKeys := some 0

/-! ## What it reads -/

/-- The parser, as far as it is called.  Errors are kept as their texts, and of
the loaded documents only their number is looked at. -/
structure Noyalib where
  loadAll : ParserConfig → Text → Except Text Nat
  documentFromStr : ParserConfig → Text → Except Text SignatureDocument
  stringFromStr : ParserConfig → Text → Except Text Text

/-- The scalar spells the value on one line: plain where YAML 1.2 leaves a string,
plain where the probe says that the parser leaves one, or in double quotes. -/
inductive Noyalib.Spells (N : Noyalib) : Text → Text → Prop
  | plain {value} : Yaml.isPlainString value = true → N.Spells value value
  | probed {value} : (∀ c ∈ value, Yaml.isPlainChar c = true) →
      N.stringFromStr signatureEmissionProbeConfig value = .ok value → N.Spells value value
  | quoted {interior value} : Yaml.Interior interior →
      Yaml.readQuoted (interior ++ ['"']) = some value →
      N.Spells ('"' :: (interior ++ ['"'])) value

/-- A line and the entry it spells. -/
inductive Noyalib.SpellsEntry (N : Noyalib) : Text → Text × Text → Prop
  | line {key scalar value} : Yaml.isKey key = true → N.Spells scalar value →
      N.SpellsEntry (Yaml.entryLine key scalar) (key, value)

/-- The text is a flat mapping of the entries, one a line. -/
inductive Noyalib.SpellsFlat (N : Noyalib) : Text → List (Text × Text) → Prop
  | lines {ls es} : ls ≠ [] → List.Forall₂ N.SpellsEntry ls es →
      N.SpellsFlat (Yaml.unlines ls) es

/-- The parser reads such a mapping within the budgets, and never as another
document. -/
structure Noyalib.FollowsYaml (N : Noyalib) : Prop where
  loads : ∀ {t es d}, N.SpellsFlat t es → SignatureDocument.ofEntries es = some d →
    signatureDocumentParserConfig.Allows t es →
    N.loadAll signatureDocumentParserConfig t = .ok 1
  reads : ∀ {t es d}, N.SpellsFlat t es → SignatureDocument.ofEntries es = some d →
    signatureDocumentParserConfig.Allows t es →
    N.documentFromStr signatureDocumentParserConfig t = .ok d
  sound : ∀ {t es d}, N.SpellsFlat t es →
    N.documentFromStr signatureDocumentParserConfig t = .ok d →
    SignatureDocument.ofEntries es = some d

/-- What the probe reads as a string, YAML 1.2 reads as one.  Only the results
that compare the emission with YAML 1.2 itself ask for it: the parser agrees with
its own probe without it. -/
def Noyalib.ProbesYaml (N : Noyalib) : Prop :=
  ∀ {t}, (∀ c ∈ t, Yaml.isPlainChar c = true) →
    N.stringFromStr signatureEmissionProbeConfig t = .ok t → Yaml.isPlainString t = true

theorem not_mem_of_isPlainChar {t : Text} (h : ∀ c ∈ t, Yaml.isPlainChar c = true) :
    '\n' ∉ t := fun hn => absurd (h _ hn) (by decide)

theorem not_mem_of_isPlainString {t : Text} (h : Yaml.isPlainString t = true) : '\n' ∉ t :=
  not_mem_of_isPlainChar (Yaml.isPlainChar_of_isPlainString h)

section
variable {N : Noyalib}

theorem Noyalib.Spells.no_lf {scalar value : Text} (h : N.Spells scalar value) :
    '\n' ∉ scalar := by
  cases h with
  | plain h => exact not_mem_of_isPlainString h
  | probed h _ => exact not_mem_of_isPlainChar h
  | quoted h _ =>
    intro hn
    rcases List.mem_cons.mp hn with hn | hn
    · exact absurd hn (by decide)
    · rcases List.mem_append.mp hn with hn | hn
      · exact h.not_isControl _ hn (by decide)
      · exact absurd (List.mem_singleton.mp hn) (by decide)

theorem Noyalib.Spells.read (hprobe : N.ProbesYaml) {scalar value : Text}
    (h : N.Spells scalar value) : Yaml.readScalar scalar = some value := by
  cases h with
  | plain h => exact Yaml.readScalar_of_isPlainString h
  | probed hc h => exact Yaml.readScalar_of_isPlainString (hprobe hc h)
  | quoted _ h => exact h

theorem Noyalib.SpellsEntry.no_lf {line : Text} {e : Text × Text} (h : N.SpellsEntry line e) :
    '\n' ∉ line := by
  cases h with
  | line hk hs =>
    have hkey := not_mem_of_isPlainString (Bool.and_eq_true _ _ ▸ hk).1
    intro hn
    rcases List.mem_append.mp hn with hn | hn
    · exact hkey hn
    · rcases List.mem_cons.mp hn with hn | hn
      · exact absurd hn (by decide)
      · rcases List.mem_cons.mp hn with hn | hn
        · exact absurd hn (by decide)
        · exact hs.no_lf hn

theorem no_lf_of_forall₂ {ls : List Text} {es : List (Text × Text)}
    (h : List.Forall₂ N.SpellsEntry ls es) : ∀ l ∈ ls, '\n' ∉ l := by
  induction h with
  | nil =>
    intro l hl
    cases hl
  | cons hle _ ih =>
    intro l hl
    rcases List.mem_cons.mp hl with hl | hl
    · rw [hl]
      exact hle.no_lf
    · exact ih l hl

/-- With such a probe, the mapping is one that YAML 1.2 reads. -/
theorem Noyalib.SpellsFlat.readFlat (hprobe : N.ProbesYaml) {t : Text}
    {es : List (Text × Text)} (h : N.SpellsFlat t es) : Yaml.readFlat t = some es := by
  cases h with
  | lines hne hls =>
    refine Yaml.readFlat_unlines hne (no_lf_of_forall₂ hls) ?_
    clear hne
    induction hls with
    | nil => rfl
    | cons hle _ ih =>
      cases hle with
      | line hk hs =>
        rw [List.mapM_cons, Yaml.readEntry_entryLine hk (hs.read hprobe)]
        show (List.mapM Yaml.readEntry _).bind _ = _
        rw [ih]
        rfl

end

def SignatureDocument.scalars (d : SignatureDocument) : List Text :=
  [d.schema, d.alg, d.signature] ++ d.keyid.toList

/-- No decoded scalar is longer than the budget for all of them together. -/
def Noyalib.KeepsScalarBudget (N : Noyalib) : Prop :=
  ∀ {t d}, N.documentFromStr signatureDocumentParserConfig t = .ok d →
    ∀ s ∈ d.scalars, (asBytes s).length ≤ signatureDocumentMaxTotalScalarBytes

/-! ## The base64url codec -/

/-- The unpadded URL-safe engine. -/
structure Base64 where
  encode : Bytes → Text
  decode : Text → Option Bytes

structure Base64.Lawful (S : Base64) : Prop where
  decode_encode : ∀ o, S.decode (S.encode o) = some o
  encode_decode : ∀ {t o}, S.decode t = some o → S.encode o = t
  alphabet : ∀ {o c}, c ∈ S.encode o → Base64Url.IsLetter c
  length_encode : ∀ o, (S.encode o).length = (4 * o.length + 2) / 3

/-! ## All of them -/

structure Backend where
  noyalib : Noyalib
  base64 : Base64
  buffa : Pb.Buffa

structure Backend.Lawful (K : Backend) : Prop where
  noyalib : K.noyalib.FollowsYaml
  base64 : K.base64.Lawful
  buffa : K.buffa.FollowsProto3

namespace Reference

/-- A parser for flat mappings within the budgets, and nothing else. -/
def readDocument (cfg : ParserConfig) (t : Text) : Option SignatureDocument := do
  let es ← Yaml.readFlat t
  if cfg.Allows t es then SignatureDocument.ofEntries es else none

def noyalib : Noyalib where
  loadAll cfg t := if (readDocument cfg t).isSome then .ok 1 else .error []
  documentFromStr cfg t :=
    match readDocument cfg t with
    | some d => .ok d
    | none => .error []
  stringFromStr _ t := if Yaml.isPlainString t then .ok t else .error []

theorem readDocument_of_readFlat (cfg : ParserConfig) {t : Text} {es : List (Text × Text)}
    (h : Yaml.readFlat t = some es) :
    readDocument cfg t = if cfg.Allows t es then SignatureDocument.ofEntries es else none := by
  unfold readDocument
  rw [h]
  rfl

theorem documentFromStr_eq_ok_iff {cfg : ParserConfig} {t : Text} {d : SignatureDocument} :
    noyalib.documentFromStr cfg t = .ok d ↔ readDocument cfg t = some d := by
  simp only [noyalib]
  cases readDocument cfg t with
  | none => exact ⟨fun h => (by cases h), fun h => (by cases h)⟩
  | some d' => simp

theorem noyalib_probesYaml : noyalib.ProbesYaml := by
  intro t _ h
  have h : (if Yaml.isPlainString t then Except.ok t else .error []) = .ok t := h
  by_cases hp : Yaml.isPlainString t = true
  · exact hp
  · rw [if_neg hp] at h
    cases h

theorem noyalib_followsYaml : noyalib.FollowsYaml where
  loads := by
    intro t es d ht hd hcfg
    have hread := readDocument_of_readFlat signatureDocumentParserConfig
      (ht.readFlat noyalib_probesYaml)
    rw [if_pos hcfg, hd] at hread
    show (if (readDocument signatureDocumentParserConfig t).isSome then Except.ok 1
      else .error []) = .ok 1
    rw [hread]
    rfl
  reads := by
    intro t es d ht hd hcfg
    have hread := readDocument_of_readFlat signatureDocumentParserConfig
      (ht.readFlat noyalib_probesYaml)
    rw [if_pos hcfg, hd] at hread
    exact documentFromStr_eq_ok_iff.mpr hread
  sound := by
    intro t es d ht h
    have hread := readDocument_of_readFlat signatureDocumentParserConfig
      (ht.readFlat noyalib_probesYaml)
    rw [documentFromStr_eq_ok_iff.mp h] at hread
    by_cases hcfg : signatureDocumentParserConfig.Allows t es
    · rw [if_pos hcfg] at hread
      exact hread.symm
    · rw [if_neg hcfg] at hread
      cases hread

theorem length_le_scalarBytes {es : List (Text × Text)} {k v : Text} (h : es.lookup k = some v) :
    (asBytes v).length ≤ scalarBytes es := by
  induction es with
  | nil => cases h
  | cons e es ih =>
    obtain ⟨k', v'⟩ := e
    show _ ≤ (asBytes k').length + (asBytes v').length + scalarBytes es
    rw [List.lookup_cons] at h
    cases hk : k == k' with
    | true =>
      rw [hk] at h
      cases h
      omega
    | false =>
      rw [hk] at h
      have := ih h
      omega

theorem length_le_of_ofEntries {es : List (Text × Text)} {d : SignatureDocument}
    (h : SignatureDocument.ofEntries es = some d) :
    ∀ s ∈ d.scalars, (asBytes s).length ≤ scalarBytes es := by
  unfold SignatureDocument.ofEntries at h
  split at h
  · obtain ⟨schema, hschema, h⟩ := Option.bind_eq_some_iff.mp h
    obtain ⟨alg, halg, h⟩ := Option.bind_eq_some_iff.mp h
    obtain ⟨signature, hsignature, h⟩ := Option.bind_eq_some_iff.mp h
    cases h
    intro s hs
    simp only [SignatureDocument.scalars, List.mem_append, List.mem_cons, List.not_mem_nil,
      or_false, Option.mem_toList] at hs
    rcases hs with (hs | hs | hs) | hs
    · exact hs ▸ length_le_scalarBytes hschema
    · exact hs ▸ length_le_scalarBytes halg
    · exact hs ▸ length_le_scalarBytes hsignature
    · exact length_le_scalarBytes hs
  · cases h

theorem noyalib_keepsScalarBudget : noyalib.KeepsScalarBudget := by
  intro t d h s hs
  obtain ⟨es, hes, h⟩ := Option.bind_eq_some_iff.mp (documentFromStr_eq_ok_iff.mp h)
  by_cases hcfg : signatureDocumentParserConfig.Allows t es
  · rw [if_pos hcfg] at h
    exact Nat.le_trans (length_le_of_ofEntries h s hs) (hcfg.scalars _ rfl)
  · rw [if_neg hcfg] at h
    cases h

def base64 : Base64 where
  encode := Base64Url.encode
  decode := Base64Url.decode

theorem base64_lawful : base64.Lawful where
  decode_encode := Base64Url.decode_encode
  encode_decode := Base64Url.encode_of_decode
  alphabet := Base64Url.isLetter_of_mem_encode
  length_encode := Base64Url.length_encode

def backend : Backend where
  noyalib := noyalib
  base64 := base64
  buffa := Pb.Proto3.buffa

theorem backend_lawful : backend.Lawful where
  noyalib := noyalib_followsYaml
  base64 := base64_lawful
  buffa := Pb.Proto3.buffa_followsProto3

end Reference

end Core
end YamlSigil
