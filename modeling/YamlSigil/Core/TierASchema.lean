/-
The vendored schema of signature documents.

The schema counts code points and matches patterns where the verifier counts
octets and decodes.  What the verifier accepts is accepted here.
-/
import YamlSigil.Core.SignatureDoc
import YamlSigil.Format.Regex

namespace YamlSigil
namespace Core

open Format

/-! ## The schema -/

/-- `[A-Za-z0-9_-]` -/
def base64urlClass (c : Char) : Bool :=
  ('A' ≤ c && c ≤ 'Z') || ('a' ≤ c && c ≤ 'z') || ('0' ≤ c && c ≤ '9') || c == '_' || c == '-'

/-- `^(?:[A-Za-z0-9_-]{4})*(?:[A-Za-z0-9_-]{2,3})?$` -/
def signaturePattern : Regex :=
  .seq (.star ((Regex.cls base64urlClass).times 4))
    (.alt (.alt ((Regex.cls base64urlClass).times 2) ((Regex.cls base64urlClass).times 3)) .empty)

/-- `[^\r\n]` -/
def notLineBreak (c : Char) : Bool := c != '\r' && c != '\n'

/-- `^[^\r\n]+$` -/
def keyidPattern : Regex := .seq (.cls notLineBreak) (.star (.cls notLineBreak))

def schemaProperty : StringSchema where
  const := some "YamlSigilSignature.v1alpha1".toList
  enum := none
  minLength := none
  maxLength := none
  pattern := none

def algorithmDefinition : StringSchema where
  const := none
  enum := some ["ED25519_PUREEDDSA_RAW_RS64_CANONICAL".toList,
    "ECDSA_SECP256R1_SHA256_RAW_RS64".toList]
  minLength := none
  maxLength := none
  pattern := none

def keyidProperty : StringSchema where
  const := none
  enum := none
  minLength := some 1
  maxLength := some 1024
  pattern := some keyidPattern

def signatureDefinition : StringSchema where
  const := none
  enum := none
  minLength := none
  maxLength := none
  pattern := some signaturePattern

/-- `YamlSigilSignature.v1alpha1.schema.json` -/
def tierASchema : ObjectSchema where
  required := ["schema".toList, "alg".toList, "signature".toList]
  properties := [("schema".toList, schemaProperty), ("alg".toList, algorithmDefinition),
    ("keyid".toList, keyidProperty), ("signature".toList, signatureDefinition)]
  additionalProperties := false

/-- `serde_json::to_value`: an absent `keyid` is left out. -/
def SignatureDocument.toValue (doc : SignatureDocument) : List (Text × Text) :=
  [("schema".toList, doc.schema), ("alg".toList, doc.alg)] ++
    (doc.keyid.map fun keyid => ("keyid".toList, keyid)).toList ++
    [("signature".toList, doc.signature)]

/-- The validator, which describes what it finds. -/
structure JsonSchema where
  validate : ObjectSchema → List (Text × Text) → Except Text Unit

def JsonSchema.Implements (J : JsonSchema) : Prop :=
  ∀ schema members, J.validate schema members = .ok () ↔ schema.validates members = true

/-- A stand-in that only says that it found something. -/
def Reference.jsonSchema : JsonSchema where
  validate schema members :=
    if schema.validates members then .ok () else .error "the document does not conform".toList

theorem Reference.jsonSchema_implements : Reference.jsonSchema.Implements := by
  intro schema members
  show (if _ then _ else _) = _ ↔ _
  by_cases h : schema.validates members = true
  · rw [if_pos h]
    exact ⟨fun _ => h, fun _ => rfl⟩
  · rw [if_neg h]
    exact ⟨fun he => (by cases he), fun hv => absurd hv h⟩

/-- Validate a parsed document; only fields that are there after parsing. -/
def signatureDocumentValidatesTierASchema (J : JsonSchema) (doc : SignatureDocument) :
    Except CoreError Unit :=
  match J.validate tierASchema doc.toValue with
  | .ok () => .ok ()
  | .error e => .error (.signatureYaml e)

/-! ## What the schema demands -/

/-- The demands on a document, field by field. -/
structure MeetsSchema (doc : SignatureDocument) : Prop where
  schema : doc.schema = schemaV1alpha1
  alg : ∃ a, doc.alg = AlgorithmId.asYamlStr a
  keyid : ∀ k ∈ doc.keyid, k.length ≤ 1024 ∧ Regex.Matches keyidPattern k
  signature : Regex.Matches signaturePattern doc.signature

theorem validates_schemaProperty_iff {t : Text} :
    schemaProperty.validates t = true ↔ t = schemaV1alpha1 := by
  rw [StringSchema.validates_iff]
  simp only [schemaProperty, Option.mem_some_iff, forall_eq', Option.not_mem_none,
    false_implies, implies_true, and_true]
  exact Iff.rfl

theorem validates_algorithmDefinition_iff {t : Text} :
    algorithmDefinition.validates t = true ↔ ∃ a, t = AlgorithmId.asYamlStr a := by
  have henum : algorithmDefinition.validates t = true ↔
      t = AlgorithmId.asYamlStr .ed25519 ∨ t = AlgorithmId.asYamlStr .ecdsaP256Sha256 := by
    rw [StringSchema.validates_iff]
    simp only [algorithmDefinition, Option.mem_some_iff, forall_eq', Option.not_mem_none,
      false_implies, implies_true, and_true, true_and, List.mem_cons, List.not_mem_nil, or_false]
    exact Iff.rfl
  rw [henum]
  constructor
  · intro h
    rcases h with h | h
    · exact ⟨_, h⟩
    · exact ⟨_, h⟩
  · intro h
    obtain ⟨a, ha⟩ := h
    cases a with
    | ed25519 => exact .inl ha
    | ecdsaP256Sha256 => exact .inr ha

theorem length_pos_of_matches_keyidPattern {k : Text} (h : Regex.Matches keyidPattern k) :
    1 ≤ k.length := by
  cases h with
  | seq hs ht =>
    cases hs
    exact Nat.le_add_left 1 _

theorem validates_keyidProperty_iff {t : Text} :
    keyidProperty.validates t = true ↔ t.length ≤ 1024 ∧ Regex.Matches keyidPattern t := by
  rw [StringSchema.validates_iff]
  simp only [keyidProperty, Option.mem_some_iff, forall_eq', Option.not_mem_none, false_implies,
    implies_true, true_and]
  constructor
  · intro h
    exact ⟨h.2.1, h.2.2⟩
  · intro h
    exact ⟨length_pos_of_matches_keyidPattern h.2, h.1, h.2⟩

theorem validates_signatureDefinition_iff {t : Text} :
    signatureDefinition.validates t = true ↔ Regex.Matches signaturePattern t := by
  rw [StringSchema.validates_iff]
  simp only [signatureDefinition, Option.mem_some_iff, forall_eq', Option.not_mem_none,
    false_implies, implies_true, true_and]

/-- The members of a document, with the properties they have to satisfy. -/
theorem mem_toValue_iff {doc : SignatureDocument} {member : Text × Text} :
    member ∈ doc.toValue ↔ member = ("schema".toList, doc.schema) ∨
      member = ("alg".toList, doc.alg) ∨ (∃ k ∈ doc.keyid, ("keyid".toList, k) = member) ∨
      member = ("signature".toList, doc.signature) := by
  simp only [SignatureDocument.toValue, List.mem_append, List.mem_cons, List.not_mem_nil, or_false,
    Option.mem_toList, Option.mem_def, Option.map_eq_some_iff, or_assoc]

theorem tierASchema_validates_iff {doc : SignatureDocument} :
    tierASchema.validates doc.toValue = true ↔ MeetsSchema doc := by
  have hfields : tierASchema.validates doc.toValue = true ↔
      schemaProperty.validates doc.schema = true ∧ algorithmDefinition.validates doc.alg = true ∧
        (∀ k ∈ doc.keyid, keyidProperty.validates k = true) ∧
        signatureDefinition.validates doc.signature = true := by
    rw [ObjectSchema.validates_iff]
    constructor
    · intro h
      refine ⟨h.2 _ (mem_toValue_iff.mpr (.inl rfl)), h.2 _ (mem_toValue_iff.mpr (.inr (.inl rfl))),
        fun k hk => h.2 _ (mem_toValue_iff.mpr (.inr (.inr (.inl ⟨k, hk, rfl⟩)))),
        h.2 _ (mem_toValue_iff.mpr (.inr (.inr (.inr rfl))))⟩
    · intro h
      obtain ⟨hschema, halg, hkeyid, hsignature⟩ := h
      constructor
      · intro key hkey
        have hmem : ∀ {v}, (key, v) ∈ doc.toValue → key ∈ doc.toValue.map Prod.fst :=
          fun h => List.mem_map_of_mem h
        simp only [tierASchema, List.mem_cons, List.not_mem_nil, or_false] at hkey
        rcases hkey with hkey | hkey | hkey
        · exact hmem (mem_toValue_iff.mpr (.inl (by rw [hkey])))
        · exact hmem (mem_toValue_iff.mpr (.inr (.inl (by rw [hkey]))))
        · exact hmem (mem_toValue_iff.mpr (.inr (.inr (.inr (by rw [hkey])))))
      · intro member hmember
        rcases mem_toValue_iff.mp hmember with hm | hm | hm | hm
        · subst hm
          exact hschema
        · subst hm
          exact halg
        · obtain ⟨k, hk, hm⟩ := hm
          subst hm
          exact hkeyid k hk
        · subst hm
          exact hsignature
  rw [hfields, validates_schemaProperty_iff, validates_algorithmDefinition_iff,
    validates_signatureDefinition_iff]
  simp only [validates_keyidProperty_iff]
  exact ⟨fun h => ⟨h.1, h.2.1, h.2.2.1, h.2.2.2⟩, fun h => ⟨h.schema, h.alg, h.keyid, h.signature⟩⟩

/-! ## What the verifier accepts -/

theorem base64urlClass_of_isLetter {c : Char} (h : Base64Url.IsLetter c) :
    base64urlClass c = true := by
  obtain ⟨n, hn, hc⟩ := h
  subst hc
  exact (by decide : ∀ n < 64, base64urlClass (Base64Url.sextet n) = true) n hn

/-- A text that decodes is grouped as the pattern wants it. -/
theorem matches_signaturePattern {S : Base64} (hS : S.Lawful) {t : Text} {o : Bytes}
    (h : S.decode t = some o) : Regex.Matches signaturePattern t := by
  have ht := hS.encode_decode h
  have hclass : ∀ c ∈ t, base64urlClass c = true := by
    intro c hc
    rw [← ht] at hc
    exact base64urlClass_of_isLetter (hS.alphabet hc)
  have hlen : t.length = (4 * o.length + 2) / 3 := by
    rw [← ht]
    exact hS.length_encode o
  have hrest : ∀ {n}, t.length % 4 = n →
      Regex.Matches ((Regex.cls base64urlClass).times n) (t.drop (4 * (t.length / 4))) := by
    intro n hn
    refine Regex.matches_times_cls_of_length (fun c hc => hclass c (List.mem_of_mem_drop hc)) ?_
    rw [List.length_drop]
    omega
  rw [← List.take_append_drop (4 * (t.length / 4)) t]
  refine .seq (Regex.matches_star_times_cls (n := t.length / 4)
    (fun c hc => hclass c (List.mem_of_mem_take hc)) ?_) ?_
  · rw [List.length_take]
    omega
  · have hcases : t.length % 4 = 0 ∨ t.length % 4 = 2 ∨ t.length % 4 = 3 := by omega
    rcases hcases with h0 | h2 | h3
    · exact (hrest h0).altRight
    · exact (hrest h2).altLeft.altLeft
    · exact (hrest h3).altRight.altLeft

end Core
end YamlSigil
