/-
Encoding under a size policy, and into a vector that is already in use.

Every encoder makes the dry run first and emits only when the size is admitted.
The resource policy comes before the ceiling of the format.  An encoder that
fails truncates its destination to what it was.
-/
import YamlSigil.Core.Pb.Encode
import YamlSigil.Core.Resource

namespace YamlSigil
namespace Core
namespace Pb

open FacadeEncode (writeFacadeWire)
open LawfulFacade (octets Fits)

/-! ## Sizes -/

/-- `usize` has the 64 bits of the counter, so the conversion does not fail. -/
def checkProtobufSize (B : Buffa) (rawSize : Nat) : Except EncodeErrorKind Nat :=
  checkEncodedMessageSize B rawSize

def resourceProtobufSizePreflightForPlatform (B : Buffa) (rawSize platformMaximum : Nat)
    (limits : ArtifactResourceLimits) :
    Except ArtifactResourceError (Except EncodeErrorKind Nat) :=
  if rawSize > platformMaximum then .error (limits.sizeComputationOverflow .protobuf)
  else (limits.checkOutputSize .protobuf rawSize).map fun _ => checkProtobufSize B rawSize

def resourceProtobufSizePreflight (B : Buffa) (rawSize : Nat) (limits : ArtifactResourceLimits) :
    Except ArtifactResourceError (Except EncodeErrorKind Nat) :=
  resourceProtobufSizePreflightForPlatform B rawSize (2 ^ 64 - 1) limits

def resourceRawOuterSizePreflight (B : Buffa) (rawSize : Nat) (limits : ArtifactResourceLimits) :
    Except ArtifactResourceError (Except EncodeErrorKind Nat) :=
  resourceProtobufSizePreflight B rawSize limits

def resourceFacadeEncodedLen {α : Type} [FacadeEncode α] (B : Buffa) (value : α)
    (limits : ArtifactResourceLimits) :
    Except ArtifactResourceError (Except EncodeErrorKind Nat) :=
  match rawFacadeEncodedLen value with
  | .error _ => .error (limits.sizeComputationOverflow .protobuf)
  | .ok rawSize => resourceProtobufSizePreflight B rawSize limits

/-! ## Encoders -/

/-- Append to `destination`.  The second component is the vector afterwards. -/
def encodeFacadeInto {α : Type} [FacadeEncode α] (B : Buffa) (value : α) (destination : Bytes) :
    Except EncodeErrorKind Unit × Bytes :=
  match facadeEncodedLen B value with
  | .error e => (.error e, destination)
  | .ok _ =>
    let originalLen := destination.length
    match writeFacadeWire value destination with
    | (.ok (), destination) => (.ok (), destination)
    | (.error _, destination) => (.error .messageTooLarge, destination.take originalLen)

def encodeFacadeToVecWithResourceLimits {α : Type} [FacadeEncode α] (B : Buffa) (value : α)
    (limits : ArtifactResourceLimits) :
    Except ArtifactResourceError (Except EncodeErrorKind Bytes) :=
  match resourceFacadeEncodedLen B value limits with
  | .error e => .error e
  | .ok (.error e) => .ok (.error e)
  | .ok (.ok _) =>
    match writeFacadeWire value ([] : Bytes) with
    | (.ok (), destination) => .ok (.ok destination)
    | (.error _, _) => .ok (.error .other)

def encodeFacadeIntoWithResourceLimits {α : Type} [FacadeEncode α] (B : Buffa) (value : α)
    (destination : Bytes) (limits : ArtifactResourceLimits) :
    Except ArtifactResourceError (Except EncodeErrorKind Unit) × Bytes :=
  match resourceFacadeEncodedLen B value limits with
  | .error e => (.error e, destination)
  | .ok (.error e) => (.ok (.error e), destination)
  | .ok (.ok _) =>
    let originalLen := destination.length
    match writeFacadeWire value destination with
    | (.ok (), destination) => (.ok (.ok ()), destination)
    | (.error _, destination) => (.ok (.error .other), destination.take originalLen)

def composeRawOuterWithResourceLimits (B : Buffa) (payload signatureCarrier : Bytes)
    (limits : ArtifactResourceLimits) :
    Except ArtifactResourceError (Except EncodeErrorKind Bytes) :=
  let raw : RawOuter := { payload, signatureCarrier }
  match rawFacadeEncodedLen raw with
  | .error _ => .error (limits.sizeComputationOverflow .protobuf)
  | .ok rawSize =>
    match resourceRawOuterSizePreflight B rawSize limits with
    | .error e => .error e
    | .ok (.error e) => .ok (.error e)
    | .ok (.ok _) =>
      match writeFacadeWire raw ([] : Bytes) with
      | (.ok (), output) => .ok (.ok output)
      | (.error _, _) => .ok (.error .other)

/-! ## Admission -/

/-- What a policy and the format make of an output of `n` octets: over the
policy's ceiling it is a resource error, over the format's ceiling it is an
encoding error, and otherwise `r` is returned. -/
inductive Admission {α : Type} (B : Buffa) (limits : ArtifactResourceLimits) (n : Nat) (r : α) :
    Except ArtifactResourceError (Except EncodeErrorKind α) → Prop
  | resource (e : ArtifactResourceError) : limits.ceiling < n →
      (n < 2 ^ 64 → e.kind = .outputArtifactTooLarge) →
      e.artifactForm = some .protobuf → Admission B limits n r (.error e)
  | format : n ≤ limits.ceiling → B.maxMessageBytes.toNat < n →
      Admission B limits n r (.ok (.error .messageTooLarge))
  | admitted : n ≤ limits.ceiling → n ≤ B.maxMessageBytes.toNat →
      Admission B limits n r (.ok (.ok r))

/-- A bounded operation filters an unbounded one whose output has `n` octets.
The format's ceiling is looked at only for an output in `wire` form. -/
structure Filters {α : Type} (B : Buffa) (limits : ArtifactResourceLimits) (wire : Prop) (n : Nat)
    (unbounded : Run α) (bounded : Run (Except ArtifactResourceError (Except EncodeErrorKind α))) :
    Prop where
  resource : (∃ e, bounded = some (.error e)) ↔ limits.ceiling < n
  kind : ∀ {e}, bounded = some (.error e) → n < 2 ^ 64 → e.kind = .outputArtifactTooLarge
  format : bounded = some (.ok (.error .messageTooLarge)) ↔
    n ≤ limits.ceiling ∧ wire ∧ B.maxMessageBytes.toNat < n
  admitted : n ≤ limits.ceiling → (wire → n ≤ B.maxMessageBytes.toNat) →
    bounded = unbounded.map fun a => .ok (.ok a)

theorem checkEncodedMessageSize_of_lt {B : Buffa} {n : Nat} (h : B.maxMessageBytes.toNat < n) :
    checkEncodedMessageSize B n = .error .messageTooLarge := by
  cases hc : checkEncodedMessageSize B n with
  | ok m =>
    obtain ⟨-, hle⟩ := checkEncodedMessageSize_eq_ok_iff.mp hc
    omega
  | error e =>
    unfold checkEncodedMessageSize at hc
    split at hc
    · cases hc
      rfl
    · split at hc
      · cases hc
        rfl
      · cases hc

theorem toNat_of_u64TryFrom {n : Nat} {v : UInt64} (h : u64TryFrom n = some v) : v.toNat = n := by
  unfold u64TryFrom at h
  by_cases hlt : n < 2 ^ 64
  · rw [if_pos hlt] at h
    rw [← Option.some.inj h, UInt64.toNat_ofNat']
    omega
  · rw [if_neg hlt] at h
    cases h

/-- The three outcomes exclude each other. -/
theorem filters_of_outcomes {α : Type} {B : Buffa} {limits : ArtifactResourceLimits} {wire : Prop}
    {n : Nat} {unbounded : Run α}
    {bounded : Run (Except ArtifactResourceError (Except EncodeErrorKind α))}
    (hresource : limits.ceiling < n → ∃ e, bounded = some (.error e) ∧
      (n < 2 ^ 64 → e.kind = .outputArtifactTooLarge))
    (hformat : n ≤ limits.ceiling → wire → B.maxMessageBytes.toNat < n →
      bounded = some (.ok (.error .messageTooLarge)))
    (hadmitted : n ≤ limits.ceiling → (wire → n ≤ B.maxMessageBytes.toNat) →
      bounded = unbounded.map fun a => .ok (.ok a)) :
    Filters B limits wire n unbounded bounded := by
  rcases Nat.lt_or_ge limits.ceiling n with hlt | hle
  · obtain ⟨e, he, hkind⟩ := hresource hlt
    refine ⟨⟨fun _ => hlt, fun _ => ⟨e, he⟩⟩, fun he' => ?_, ⟨fun h => ?_, fun h => ?_⟩, hadmitted⟩
    · rw [he] at he'
      cases he'
      exact hkind
    · rw [he] at h
      cases h
    · exact absurd hlt (Nat.not_lt.mpr h.1)
  have hnot : ¬ limits.ceiling < n := Nat.not_lt.mpr hle
  by_cases hwire : wire ∧ B.maxMessageBytes.toNat < n
  · have hr := hformat hle hwire.1 hwire.2
    refine ⟨⟨fun h => ?_, fun h => absurd h hnot⟩, fun he => ?_, ⟨fun _ => ⟨hle, hwire⟩, fun _ => hr⟩,
      hadmitted⟩
    · obtain ⟨e, he⟩ := h
      rw [hr] at he
      cases he
    · rw [hr] at he
      cases he
  · have hr := hadmitted hle fun hw => Nat.not_lt.mp fun hlt => hwire ⟨hw, hlt⟩
    have hshape : ∀ r, bounded = some r → ∃ a, r = .ok (.ok a) := by
      intro r h
      rw [hr] at h
      obtain ⟨a, -, ha⟩ := Option.map_eq_some_iff.mp h
      exact ⟨a, ha.symm⟩
    refine ⟨⟨fun h => ?_, fun h => absurd h hnot⟩, fun he => ?_, ⟨fun h => ?_, fun h => ?_⟩, hadmitted⟩
    · obtain ⟨e, he⟩ := h
      obtain ⟨a, ha⟩ := hshape _ he
      cases ha
    · obtain ⟨a, ha⟩ := hshape _ he
      cases ha
    · obtain ⟨a, ha⟩ := hshape _ h
      cases ha
    · exact absurd h.2 hwire

/-- One of the three is the case. -/
theorem Filters.outcome {α : Type} {B : Buffa} {limits : ArtifactResourceLimits} {wire : Prop}
    {n : Nat} {unbounded : Run α}
    {bounded : Run (Except ArtifactResourceError (Except EncodeErrorKind α))}
    (h : Filters B limits wire n unbounded bounded) :
    (∃ e, bounded = some (.error e) ∧ limits.ceiling < n) ∨
    (bounded = some (.ok (.error .messageTooLarge)) ∧ n ≤ limits.ceiling ∧ wire ∧
      B.maxMessageBytes.toNat < n) ∨
    (bounded = unbounded.map (fun a => .ok (.ok a)) ∧ n ≤ limits.ceiling ∧
      (wire → n ≤ B.maxMessageBytes.toNat)) := by
  rcases Nat.lt_or_ge limits.ceiling n with hlt | hle
  · obtain ⟨e, he⟩ := h.resource.mpr hlt
    exact .inl ⟨e, he, hlt⟩
  by_cases hwire : wire ∧ B.maxMessageBytes.toNat < n
  · exact .inr (.inl ⟨h.format.mpr ⟨hle, hwire⟩, hle, hwire⟩)
  · have hmax : wire → n ≤ B.maxMessageBytes.toNat := fun hw =>
      Nat.not_lt.mp fun hlt => hwire ⟨hw, hlt⟩
    exact .inr (.inr ⟨h.admitted hle hmax, hle, hmax⟩)

theorem Admission.map {α β : Type} {B : Buffa} {limits : ArtifactResourceLimits} {n : Nat} {a : α}
    {r : Except ArtifactResourceError (Except EncodeErrorKind α)} (f : α → β)
    (h : Admission B limits n a r) : Admission B limits n (f a) (r.map (·.map f)) := by
  cases h with
  | resource e hlt hkind hform => exact .resource e hlt hkind hform
  | format hle hmax => exact .format hle hmax
  | admitted hle hmax => exact .admitted hle hmax

theorem Filters.of_wire {α : Type} {B : Buffa} {limits : ArtifactResourceLimits} {wire wire' : Prop}
    {n : Nat} {unbounded : Run α}
    {bounded : Run (Except ArtifactResourceError (Except EncodeErrorKind α))}
    (h : Filters B limits wire n unbounded bounded) (hwire : wire ↔ wire') :
    Filters B limits wire' n unbounded bounded := by
  rw [← propext hwire]
  exact h

theorem Admission.filters {α : Type} {B : Buffa} {limits : ArtifactResourceLimits} {n : Nat}
    {a : α} {r : Except ArtifactResourceError (Except EncodeErrorKind α)}
    (h : Admission B limits n a r) : Filters B limits True n (some a) (some r) := by
  cases h with
  | resource e hlt hkind _ =>
    exact filters_of_outcomes (fun _ => ⟨e, rfl, hkind⟩)
      (fun hle => absurd hlt (Nat.not_lt.mpr hle)) (fun hle => absurd hlt (Nat.not_lt.mpr hle))
  | format hle hmax =>
    exact filters_of_outcomes (fun hlt => absurd hlt (Nat.not_lt.mpr hle)) (fun _ _ _ => rfl)
      (fun _ hle => absurd hmax (Nat.not_lt.mpr (hle trivial)))
  | admitted hle hmax =>
    exact filters_of_outcomes (fun hlt => absurd hlt (Nat.not_lt.mpr hle))
      (fun _ _ hlt => absurd hlt (Nat.not_lt.mpr hmax)) (fun _ _ => rfl)

section
variable (B : Buffa) (limits : ArtifactResourceLimits)

/-- A size without a 64-bit representation. -/
theorem admission_overflow {n : Nat} {α : Type} (r : α) (h : 2 ^ 64 ≤ n) :
    Admission B limits n r (.error (limits.sizeComputationOverflow .protobuf)) :=
  .resource _ (ArtifactResourceLimits.ceiling_lt_iff.mpr (.inr h))
    (fun hlt => absurd hlt (Nat.not_lt.mpr h)) rfl

/-- The policy, then the format. -/
theorem admission_checkOutputSize {n : Nat} (hn : n < 2 ^ 64) :
    Admission B limits n n
      ((limits.checkOutputSize .protobuf n).map fun _ => checkEncodedMessageSize B n) := by
  by_cases hex : limits.Exceeded n
  · obtain ⟨e, he, hkind, hform⟩ :=
      ArtifactResourceLimits.checkOutputSize_of_exceeded .protobuf hex
    rw [he]
    exact .resource e (ArtifactResourceLimits.ceiling_lt_iff.mpr (.inl hex)) (fun _ => hkind)
      hform
  · have hle : n ≤ limits.ceiling := Nat.not_lt.mp fun hlt => by
      rcases ArtifactResourceLimits.ceiling_lt_iff.mp hlt with h | h
      · exact hex h
      · omega
    rw [ArtifactResourceLimits.checkOutputSize_of_not_exceeded .protobuf hex]
    show Admission B limits n n (.ok (checkEncodedMessageSize B n))
    by_cases hmax : B.maxMessageBytes.toNat < n
    · rw [checkEncodedMessageSize_of_lt hmax]
      exact .format hle hmax
    · rw [checkEncodedMessageSize_eq_ok_iff.mpr ⟨rfl, Nat.not_lt.mp hmax⟩]
      exact .admitted hle (Nat.not_lt.mp hmax)

theorem resourceProtobufSizePreflight_spec {n : Nat} (hn : n < 2 ^ 64) :
    Admission B limits n n (resourceProtobufSizePreflight B n limits) := by
  have hplatform : ¬ n > 2 ^ 64 - 1 := by omega
  unfold resourceProtobufSizePreflight resourceProtobufSizePreflightForPlatform
  rw [if_neg hplatform]
  exact admission_checkOutputSize B limits hn

end

/-! ## The encoders -/

section
variable {α : Type} [FacadeEncode α] [LawfulFacade α] (B : Buffa) (limits : ArtifactResourceLimits)

theorem writeFacadeWire_append (a : α) (d : Bytes) (h : (octets a).length < 2 ^ 64) :
    writeFacadeWire a d = (.ok (), d ++ octets a) := by
  obtain ⟨hok, hvec⟩ := LawfulFacade.writes (vecSpec d) (LawfulFacade.fits_of_lt h) (a := a)
    (show d = d ++ [] from (List.append_nil d).symm)
  exact Prod.ext hok hvec

theorem resourceFacadeEncodedLen_spec (a : α) :
    Admission B limits (octets a).length (octets a).length (resourceFacadeEncodedLen B a limits) := by
  unfold resourceFacadeEncodedLen
  rw [rawFacadeEncodedLen_eq]
  by_cases hlt : (octets a).length < 2 ^ 64
  · rw [if_pos hlt]
    exact resourceProtobufSizePreflight_spec B limits hlt
  · rw [if_neg hlt]
    exact admission_overflow B limits _ (Nat.not_lt.mp hlt)

/-- Every size that is admitted has a 64-bit representation. -/
theorem lt_of_le_maxMessageBytes {n : Nat} (h : n ≤ B.maxMessageBytes.toNat) : n < 2 ^ 64 := by
  have := B.maxMessageBytes.toNat_lt
  omega

theorem encodeFacadeToVecWithResourceLimits_spec (a : α) :
    Admission B limits (octets a).length (octets a)
      (encodeFacadeToVecWithResourceLimits B a limits) := by
  unfold encodeFacadeToVecWithResourceLimits
  have hsize := resourceFacadeEncodedLen_spec B limits a
  generalize resourceFacadeEncodedLen B a limits = size at hsize
  cases hsize with
  | resource e hlt hkind hform => exact .resource e hlt hkind hform
  | format hle hmax => exact .format hle hmax
  | admitted hle hmax =>
    simp only
    rw [writeFacadeWire_nil a (lt_of_le_maxMessageBytes B hmax)]
    exact .admitted hle hmax

/-- The destination is extended by the octets of the message, or left as it was. -/
theorem encodeFacadeIntoWithResourceLimits_spec (a : α) (d : Bytes) :
    Admission B limits (octets a).length () (encodeFacadeIntoWithResourceLimits B a d limits).1 ∧
      (encodeFacadeIntoWithResourceLimits B a d limits).2 =
        if (encodeFacadeIntoWithResourceLimits B a d limits).1 = .ok (.ok ()) then d ++ octets a
        else d := by
  unfold encodeFacadeIntoWithResourceLimits
  have hsize := resourceFacadeEncodedLen_spec B limits a
  generalize resourceFacadeEncodedLen B a limits = size at hsize
  cases hsize with
  | resource e hlt hkind hform => exact ⟨.resource e hlt hkind hform, (if_neg (by simp)).symm⟩
  | format hle hmax => exact ⟨.format hle hmax, (if_neg (by simp)).symm⟩
  | admitted hle hmax =>
    simp only
    rw [writeFacadeWire_append a d (lt_of_le_maxMessageBytes B hmax)]
    exact ⟨.admitted hle hmax, (if_pos rfl).symm⟩

theorem facadeEncodedLen_eq_ok_iff (a : α) {n : Nat} :
    facadeEncodedLen B a = .ok n ↔ n = (octets a).length ∧ n ≤ B.maxMessageBytes.toNat := by
  unfold facadeEncodedLen
  rw [rawFacadeEncodedLen_eq]
  by_cases hlt : (octets a).length < 2 ^ 64
  · rw [if_pos hlt]
    show checkEncodedMessageSize B (octets a).length = .ok n ↔ _
    rw [checkEncodedMessageSize_eq_ok_iff]
    constructor
    · intro h
      rcases h with ⟨hn, hle⟩
      subst hn
      exact ⟨rfl, hle⟩
    · intro h
      rcases h with ⟨hn, hle⟩
      subst hn
      exact ⟨rfl, hle⟩
  · rw [if_neg hlt]
    refine ⟨fun h => (by cases h), fun h => ?_⟩
    have := lt_of_le_maxMessageBytes B h.2
    omega

theorem encodeFacadeInto_eq (a : α) (d : Bytes) :
    encodeFacadeInto B a d =
      match facadeEncodedLen B a with
      | .error e => (.error e, d)
      | .ok _ => (.ok (), d ++ octets a) := by
  unfold encodeFacadeInto
  cases hlen : facadeEncodedLen B a with
  | error e => rfl
  | ok n =>
    obtain ⟨hn, hle⟩ := (facadeEncodedLen_eq_ok_iff B a).mp hlen
    subst hn
    simp only
    rw [writeFacadeWire_append a d (lt_of_le_maxMessageBytes B hle)]

end

/-- Composing under a policy: the octets the composer emits, when their number is admitted. -/
theorem composeRawOuterWithResourceLimits_spec (B : Buffa) (limits : ArtifactResourceLimits)
    (p c : Bytes) :
    Admission B limits (RawOuter.octets ⟨p, c⟩).length (RawOuter.octets ⟨p, c⟩)
      (composeRawOuterWithResourceLimits B p c limits) := by
  have hsame : composeRawOuterWithResourceLimits B p c limits =
      encodeFacadeToVecWithResourceLimits B (RawOuter.mk p c) limits := by
    unfold composeRawOuterWithResourceLimits encodeFacadeToVecWithResourceLimits
      resourceFacadeEncodedLen resourceRawOuterSizePreflight
    cases hlen : rawFacadeEncodedLen (RawOuter.mk p c) with
    | error e => simp only [hlen]
    | ok rawSize => simp only [hlen]
  rw [hsame]
  exact encodeFacadeToVecWithResourceLimits_spec B limits (RawOuter.mk p c)

end Pb
end Core
end YamlSigil
