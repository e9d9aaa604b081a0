/-
What qualification is worth.

The synchronous and the awaited programs are the programs of two suites, one for
each slot.  A suite separates its handles: right after a later bind it wants one
signature accepted by one handle and refused by another.
-/
import YamlSigil.Verification.Qualification

namespace YamlSigil
namespace Verification

open Control YamlSigil.Core

abbrev ProviderSuite :=
  Suite (AlgorithmId × Bytes) (Bytes × Octets64) ProviderVerificationOutcome

def qualificationGrading :
    Grading ProviderVerificationOutcome ProviderQualificationErrorKind where
  unbound := .keyBindingFailed
  check := expectProviderResult
  check_eq_ok_iff := expectProviderResult_eq_ok_iff

/-! ## The suites -/

/-- What is done with each later key: its handle, then the first one, and then both
with the signature of the other. -/
def ed25519Round {n : Nat} (publicKey message : Bytes) (signature : Octets64)
    (rest : ProviderSuite (n + 2)) : ProviderSuite (n + 1) :=
  .bind (.ed25519, publicKey) <|
  .expect (Fin.last (n + 1)) (message, signature) .verified <|
  .expect 0 ([], rfc8032Test1Signature) .verified <|
  .expect (Fin.last (n + 1)) ([], rfc8032Test1Signature) .signatureMismatch <|
  .expect 0 (message, signature) .signatureMismatch <|
  .expect (Fin.last (n + 1)) (message, signature) .verified rest

def ed25519Suite : ProviderSuite 0 :=
  .bind (.ed25519, rfc8032Test1PublicKey) <|
  .expect 0 ([], rfc8032Test1Signature) .verified <|
  .expect 0 (asBytes "not empty".toList, rfc8032Test1Signature) .signatureMismatch <|
  ed25519Round ed25519MixedRPublicKey ed25519MixedRMessage ed25519MixedRSignature <|
  ed25519Round ed25519MixedAPublicKey ed25519MixedAMessage ed25519MixedASignature .done

/-- The first handle accepts a signature that the second one refuses. -/
def p256Round (signature : Octets64) (rest : ProviderSuite 2) : ProviderSuite 2 :=
  .expect 0 (p256QualificationMessage, signature) .verified <|
  .expect 1 (p256QualificationMessage, signature) .signatureMismatch rest

def p256Suite : ProviderSuite 0 :=
  .bind (.ecdsaP256Sha256, p256QualificationPublicKey) <|
  .expect 0 (p256QualificationMessage, p256QualificationLowSignature) .verified <|
  .expect 0 (p256QualificationMessage, p256QualificationHighSignature) .verified <|
  .expect 0 (asBytes "different".toList, p256QualificationLowSignature) .signatureMismatch <|
  .bind (.ecdsaP256Sha256, p256AlternatePublicKey) <|
  .expect 1 (p256QualificationMessage, p256AlternateSignature) .verified <|
  p256Round p256QualificationLowSignature <|
  p256Round p256QualificationHighSignature <|
  .expect 0 (p256QualificationMessage, p256AlternateSignature) .signatureMismatch <|
  .expect 1 (asBytes "different".toList, p256AlternateSignature) .signatureMismatch <|
  .expect 1 (p256QualificationMessage, p256AlternateSignature) .verified .done

theorem ed25519Suite_separates : ed25519Suite.Separates := by
  -- after the second bind, the mixed `R` signature on both handles
  exact .inr (.inr (.inl (.inr (.inr (.inl ⟨rfl, by decide⟩)))))

theorem p256Suite_separates : p256Suite.Separates := by
  -- after the second bind, the low `s` signature on both handles
  exact .inr (.inr (.inr (.inr (.inl (.inl ⟨rfl, by decide⟩)))))

section
variable {H : Type}

theorem snoc_elim0_zero (h : H) : (Fin.snoc Fin.elim0 h : Fin 1 → H) 0 = h := rfl

theorem snoc_one (f : Fin 1 → H) (h : H) : (Fin.snoc f h : Fin 2 → H) 1 = h := rfl

theorem qualifyEd25519Provider_eq :
    (qualifyEd25519Provider : Qualifying H Unit) =
      ed25519Suite.program qualificationGrading Fin.elim0 := by
  simp only [qualifyEd25519Provider, bindProvider, verifyProvider, ed25519Suite, ed25519Round,
    Suite.program, qualificationGrading, List.forIn_cons, List.forIn_nil, bind_assoc, pure_bind,
    bind_pure_unit, snoc_elim0_zero, Fin.snoc_apply_zero, Fin.snoc_last]

theorem qualifyP256Provider_eq :
    (qualifyP256Provider : Qualifying H Unit) =
      p256Suite.program qualificationGrading Fin.elim0 := by
  simp only [qualifyP256Provider, bindProvider, verifyProvider, p256Suite, p256Round,
    Suite.program, qualificationGrading, List.forIn_cons, List.forIn_nil, bind_assoc, pure_bind,
    bind_pure_unit, snoc_elim0_zero, Fin.snoc_apply_zero, snoc_one]

theorem awaited_qualifyEd25519_eq :
    (Awaited.qualifyEd25519 : Qualifying H Unit) =
      ed25519Suite.program qualificationGrading Fin.elim0 := by
  simp only [Awaited.qualifyEd25519, Awaited.bindVerifier, Awaited.verifyErased, ed25519Suite,
    ed25519Round, Suite.program, qualificationGrading, List.forIn_cons, List.forIn_nil,
    bind_assoc, pure_bind, bind_pure_unit, snoc_elim0_zero, Fin.snoc_apply_zero, Fin.snoc_last]

theorem awaited_qualifyP256_eq :
    (Awaited.qualifyP256 : Qualifying H Unit) =
      p256Suite.program qualificationGrading Fin.elim0 := by
  simp only [Awaited.qualifyP256, Awaited.bindVerifier, Awaited.verifyErased, p256Suite,
    p256Round, Suite.program, qualificationGrading, List.forIn_cons, List.forIn_nil, bind_assoc,
    pure_bind, bind_pure_unit, snoc_elim0_zero, Fin.snoc_apply_zero, snoc_one]

theorem awaited_qualify_eq : (Awaited.qualify : Asking H QualifiedSlots) = qualify := by
  rw [Awaited.qualify, qualify, awaited_qualifyEd25519_eq, awaited_qualifyP256_eq,
    qualifyEd25519Provider_eq, qualifyP256Provider_eq]

end

/-! ## Qualification as an experiment -/

section
variable {H S : Type} (provider : StatefulProvider H S) (s : S)

/-- The state in which the Ed25519 suite leaves the provider. -/
def afterEd25519 : S := (Dialogue.run provider qualifyEd25519Provider.run s).2

theorem run_qualify : Dialogue.run provider qualify s =
    (⟨qualificationStatus .ed25519 (Dialogue.run provider qualifyEd25519Provider.run s).1,
      qualificationStatus .ecdsaP256Sha256
        (Dialogue.run provider qualifyP256Provider.run (afterEd25519 provider s)).1⟩,
      (Dialogue.run provider qualifyP256Provider.run (afterEd25519 provider s)).2) := by
  rw [qualify, Dialogue.run_bind, Dialogue.run_bind]
  rfl

theorem calls_qualify : Dialogue.calls provider qualify s =
    Dialogue.calls provider qualifyEd25519Provider.run s ++
      Dialogue.calls provider qualifyP256Provider.run (afterEd25519 provider s) := by
  rw [qualify, Dialogue.calls_bind, Dialogue.calls_bind]
  exact congrArg _ (List.append_nil _)

/-- Main result on the two ways to qualify: against every provider they are one
experiment, and the P-256 slot is tried whatever became of the other one. -/
theorem qualification_same_experiment :
    Dialogue.calls provider Awaited.qualify s = Dialogue.calls provider qualify s ∧
      Dialogue.run provider Awaited.qualify s = Dialogue.run provider qualify s ∧
      (∀ s', Dialogue.calls provider Awaited.qualifyEd25519.run s' =
          Dialogue.calls provider qualifyEd25519Provider.run s' ∧
        Dialogue.run provider Awaited.qualifyEd25519.run s' =
          Dialogue.run provider qualifyEd25519Provider.run s') ∧
      (∀ s', Dialogue.calls provider Awaited.qualifyP256.run s' =
          Dialogue.calls provider qualifyP256Provider.run s' ∧
        Dialogue.run provider Awaited.qualifyP256.run s' =
          Dialogue.run provider qualifyP256Provider.run s') ∧
      (Dialogue.run provider qualify s).1.ecdsaP256Sha256 =
        qualificationStatus .ecdsaP256Sha256
          (Dialogue.run provider qualifyP256Provider.run (afterEd25519 provider s)).1 ∧
      ∃ rest, Dialogue.calls provider qualify s =
        Dialogue.calls provider qualifyEd25519Provider.run s ++
          HandleCall.bind (.ecdsaP256Sha256, p256QualificationPublicKey) :: rest := by
  refine ⟨by rw [awaited_qualify_eq], by rw [awaited_qualify_eq], fun s' => ?_, fun s' => ?_, ?_,
    _, calls_qualify provider s⟩
  · rw [awaited_qualifyEd25519_eq, qualifyEd25519Provider_eq]
    exact ⟨rfl, rfl⟩
  · rw [awaited_qualifyP256_eq, qualifyP256Provider_eq]
    exact ⟨rfl, rfl⟩
  · rw [run_qualify]

end

/-! ## Shared key policies -/

/-- A provider whose handles are all alike: its verdicts follow one policy, which
knows every key bound so far. -/
def sharedPolicy
    (policy :
      List ((AlgorithmId × Bytes) × Bool) → Bytes × Octets64 → ProviderVerificationOutcome) :
    StatefulProvider Unit (List ((AlgorithmId × Bytes) × Bool))
  | .bind key, binds => (some (), binds ++ [(key, true)])
  | .judge _ question, binds => (policy binds question, binds)

theorem oblivious_sharedPolicy
    (policy : List ((AlgorithmId × Bytes) × Bool) → Bytes × Octets64 →
      ProviderVerificationOutcome) :
    Keyholder.Oblivious (sharedPolicy policy) [] := by
  have hbinds : ∀ {binds handles s}, Keyholder.Reaches (sharedPolicy policy) [] binds handles s →
      s = binds := by
    intro binds handles s h
    induction h with
    | start => rfl
    | bind key _ ih => exact congrArg (· ++ [(key, true)]) ih
    | judge question _ _ ih => exact ih
  intro binds handles handles' s s' handle handle' hs hs' _ _ question
  rw [hbinds hs, hbinds hs']

theorem isQualified_qualificationStatus_iff {algorithm : AlgorithmId}
    {result : Except ProviderQualificationErrorKind Unit} :
    (qualificationStatus algorithm result).isQualified = true ↔ result = .ok () := by
  cases result with
  | error e => exact ⟨fun h => (by cases h), fun h => (by cases h)⟩
  | ok u => exact ⟨fun _ => rfl, fun _ => rfl⟩

section
variable {H S : Type} {provider : StatefulProvider H S} {s : S}

theorem not_isQualified_of_ne_ok {algorithm : AlgorithmId}
    {result : Except ProviderQualificationErrorKind Unit} (h : result ≠ .ok ()) :
    (qualificationStatus algorithm result).isQualified = false :=
  Bool.eq_false_iff.mpr fun hq => h (isQualified_qualificationStatus_iff.mp hq)

theorem not_isQualified_qualify (hobl : provider.Oblivious s) (algorithm : AlgorithmId) :
    ((Dialogue.run provider qualify s).1.status algorithm).isQualified = false := by
  rw [run_qualify]
  have hnone : ∀ handles i, (Fin.elim0 i : H) ∈ (handles : List H) := fun handles i => i.elim0
  cases algorithm with
  | ed25519 =>
    refine not_isQualified_of_ne_ok ?_
    rw [qualifyEd25519Provider_eq]
    exact Suite.not_passed_of_separates ed25519Suite_separates hobl .start (hnone [])
  | ecdsaP256Sha256 =>
    refine not_isQualified_of_ne_ok ?_
    rw [afterEd25519, qualifyEd25519Provider_eq, qualifyP256Provider_eq]
    obtain ⟨binds, handles, hreach⟩ :=
      ed25519Suite.reaches_outcome (G := qualificationGrading) .start (hnone [])
    exact Suite.not_passed_of_separates p256Suite_separates hobl hreach (hnone handles)

end

section
variable (C : KeyCrypto) {H : Type} {algorithm : AlgorithmId}

theorem bind_of_not_qualified {slots : QualifiedSlots}
    (h : (slots.status algorithm).isQualified = false) (publicKey : Bytes) :
    ∃ e, (slots.bind C algorithm publicKey : Asking H _) = .done (.error e) := by
  unfold QualifiedSlots.bind
  rw [h]
  split
  · exact ⟨_, rfl⟩
  · exact ⟨_, rfl⟩

theorem awaited_bind_of_not_qualified {slots : QualifiedSlots}
    (h : (slots.status algorithm).isQualified = false) (publicKey : Bytes) :
    ∃ e, (Awaited.bind C slots algorithm publicKey : Asking H _) = .done (.error e) := by
  unfold Awaited.bind
  rw [h]
  split
  · exact ⟨_, rfl⟩
  · exact ⟨_, rfl⟩

end

/-- A slot without the evidence gives no key: nothing is asked and there is an error. -/
def GivesNoKey (C : KeyCrypto) (slots : QualifiedSlots) (algorithm : AlgorithmId) : Prop :=
  ∀ (H S : Type) (provider : StatefulProvider H S) (s : S) (publicKey : Bytes),
    (Dialogue.calls provider (slots.bind C algorithm publicKey) s = [] ∧
      ∀ key, (Dialogue.run provider (slots.bind C algorithm publicKey) s).1 ≠ .ok key) ∧
    (Dialogue.calls provider (Awaited.bind C slots algorithm publicKey) s = [] ∧
      ∀ key, (Dialogue.run provider (Awaited.bind C slots algorithm publicKey) s).1 ≠ .ok key)

theorem givesNoKey_of_not_qualified (C : KeyCrypto) {slots : QualifiedSlots}
    {algorithm : AlgorithmId} (h : (slots.status algorithm).isQualified = false) :
    GivesNoKey C slots algorithm := by
  intro H S provider s publicKey
  obtain ⟨e, he⟩ := bind_of_not_qualified C (H := H) h publicKey
  obtain ⟨e', he'⟩ := awaited_bind_of_not_qualified C (H := H) h publicKey
  rw [he, he']
  exact ⟨⟨rfl, fun key hk => (by cases hk)⟩, rfl, fun key hk => (by cases hk)⟩

/-- Main result on shared keys: a provider whose verdicts do not depend on the handle
qualifies for no slot and gives no key. -/
theorem oblivious_never_qualified {H S : Type} {provider : StatefulProvider H S} {s : S}
    (hobl : provider.Oblivious s) (algorithm : AlgorithmId) :
    (((Dialogue.run provider qualify s).1.status algorithm).isQualified = false ∧
      ((Dialogue.run provider Awaited.qualify s).1.status algorithm).isQualified = false) ∧
    ∀ C : KeyCrypto, GivesNoKey C (Dialogue.run provider qualify s).1 algorithm ∧
      GivesNoKey C (Dialogue.run provider Awaited.qualify s).1 algorithm ∧
      ∀ slots : QualifiedSlots, (slots.status algorithm).isQualified = false →
        GivesNoKey C slots algorithm := by
  have h := not_isQualified_qualify hobl algorithm
  rw [awaited_qualify_eq]
  exact ⟨⟨h, h⟩, fun C => ⟨givesNoKey_of_not_qualified C h, givesNoKey_of_not_qualified C h,
    fun slots hslots => givesNoKey_of_not_qualified C hslots⟩⟩

/-- The first key that was bound, for every handle. -/
theorem oblivious_never_qualified_first_key :
    ((Dialogue.run (sharedPolicy fun binds question =>
        if binds.head?.map Prod.fst = some (.ed25519, rfc8032Test1PublicKey) ∧
          question = ([], rfc8032Test1Signature) then .verified
        else .signatureMismatch) qualify []).1.status .ed25519).isQualified = false :=
  (oblivious_never_qualified (oblivious_sharedPolicy _) .ed25519).1.1

end Verification
end YamlSigil
