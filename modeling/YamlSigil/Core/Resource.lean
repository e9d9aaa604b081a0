/-
The opt-in policy on the size of complete artifacts.

Sizes are `usize` values: sums are checked, and a sum that does not fit is an
error of its own.  What a check does depends on one comparison, `Exceeded`.
-/
import YamlSigil.Core.Basic

namespace YamlSigil
namespace Core

inductive ArtifactResourceForm where
  | yaml
  | protobuf
deriving Repr, DecidableEq

inductive ArtifactResourceErrorKind where
  | inputArtifactTooLarge
  | outputArtifactTooLarge
  | sizeComputationOverflow
deriving Repr, DecidableEq

structure ArtifactResourceError where
  kind : ArtifactResourceErrorKind
  artifactForm : Option ArtifactResourceForm
  configuredMaxArtifactBytes : Option Nat
  observedOrProjectedArtifactBytes : Option Nat
deriving Repr, DecidableEq

/-- `NonZeroUsize`. -/
abbrev NonZeroUsize := { n : Nat // n ≠ 0 ∧ n < 2 ^ 64 }

structure ArtifactResourceLimits where
  maxArtifactBytes : Option NonZeroUsize
deriving DecidableEq

/-- `usize::checked_add`. -/
def checkedAdd (a b : Nat) : Option Nat := if a + b < 2 ^ 64 then some (a + b) else none

namespace ArtifactResourceLimits

/-- Check a complete encoded input, which is returned. -/
def checkInputSize (limits : ArtifactResourceLimits) (form : ArtifactResourceForm)
    (artifact : Bytes) : Except ArtifactResourceError Bytes :=
  match limits.maxArtifactBytes with
  | none => .ok artifact
  | some maximum =>
    if artifact.length > maximum then
      .error ⟨.inputArtifactTooLarge, some form, some maximum, some artifact.length⟩
    else .ok artifact

def checkOutputSize (limits : ArtifactResourceLimits) (form : ArtifactResourceForm)
    (encodedSize : Nat) : Except ArtifactResourceError Nat :=
  match limits.maxArtifactBytes with
  | none => .ok encodedSize
  | some maximum =>
    if encodedSize > maximum then
      .error ⟨.outputArtifactTooLarge, some form, some maximum, some encodedSize⟩
    else .ok encodedSize

/-- Check a size that the output has at least.  The error names no size. -/
def checkOutputSizeLowerBound (limits : ArtifactResourceLimits) (form : ArtifactResourceForm)
    (minimumEncodedSize : Nat) : Except ArtifactResourceError Nat :=
  match limits.maxArtifactBytes with
  | none => .ok minimumEncodedSize
  | some maximum =>
    if minimumEncodedSize > maximum then
      .error ⟨.outputArtifactTooLarge, some form, some maximum, none⟩
    else .ok minimumEncodedSize

def sizeComputationOverflow (limits : ArtifactResourceLimits) (form : ArtifactResourceForm) :
    ArtifactResourceError :=
  ⟨.sizeComputationOverflow, some form, limits.maxArtifactBytes.map Subtype.val, none⟩

/-! ## One comparison -/

/-- `n` octets are over the ceiling. -/
def Exceeded (limits : ArtifactResourceLimits) (n : Nat) : Prop :=
  ∃ maximum, limits.maxArtifactBytes = some maximum ∧ maximum.val < n

instance (limits : ArtifactResourceLimits) (n : Nat) : Decidable (limits.Exceeded n) :=
  match h : limits.maxArtifactBytes with
  | none => isFalse fun hex => by
      obtain ⟨_, hmax, _⟩ := hex
      rw [h] at hmax
      cases hmax
  | some maximum => decidable_of_iff (maximum.val < n)
      ⟨fun hlt => ⟨maximum, h, hlt⟩, fun hex => by
        obtain ⟨_, hmax, hlt⟩ := hex
        rw [h] at hmax
        cases hmax
        exact hlt⟩

/-- The largest size that passes.  Without a configured ceiling it is the largest `usize`. -/
def ceiling (limits : ArtifactResourceLimits) : Nat :=
  match limits.maxArtifactBytes with
  | none => 2 ^ 64 - 1
  | some maximum => maximum

theorem ceiling_lt_iff {limits : ArtifactResourceLimits} {n : Nat} :
    limits.ceiling < n ↔ limits.Exceeded n ∨ 2 ^ 64 ≤ n := by
  unfold ceiling Exceeded
  cases hmax : limits.maxArtifactBytes with
  | none =>
    show 2 ^ 64 - 1 < n ↔ _
    constructor
    · intro h
      exact .inr (by omega)
    · intro h
      rcases h with ⟨_, hnone, _⟩ | h
      · cases hnone
      · omega
  | some maximum =>
    have hlt := maximum.property.2
    constructor
    · intro h
      exact .inl ⟨maximum, rfl, h⟩
    · intro h
      rcases h with ⟨_, hsome, hlt⟩ | h
      · cases hsome
        exact hlt
      · exact Nat.lt_of_lt_of_le hlt h

/-- An error of `kind` about an artifact of this form. -/
def IsError {α : Type} (kind : ArtifactResourceErrorKind) (form : ArtifactResourceForm)
    (r : Except ArtifactResourceError α) : Prop :=
  ∃ e, r = .error e ∧ e.kind = kind ∧ e.artifactForm = some form

/-- The shape of the three checks: `e` is the error for a ceiling. -/
def checkSize {α : Type} (limits : ArtifactResourceLimits) (n : Nat)
    (e : Nat → ArtifactResourceError) (a : α) : Except ArtifactResourceError α :=
  match limits.maxArtifactBytes with
  | none => .ok a
  | some maximum => if n > maximum then .error (e maximum) else .ok a

section
variable {limits : ArtifactResourceLimits}

theorem checkSize_of_not_exceeded {α : Type} {n : Nat} (h : ¬ limits.Exceeded n)
    (e : Nat → ArtifactResourceError) (a : α) : limits.checkSize n e a = .ok a := by
  unfold checkSize
  cases hmax : limits.maxArtifactBytes with
  | none => rfl
  | some maximum => exact if_neg fun hgt => h ⟨maximum, hmax, hgt⟩

theorem checkSize_of_exceeded {α : Type} {n : Nat} (h : limits.Exceeded n)
    (e : Nat → ArtifactResourceError) (a : α) :
    ∃ maximum, limits.checkSize n e a = .error (e maximum) := by
  obtain ⟨maximum, hmax, hlt⟩ := h
  unfold checkSize
  rw [hmax]
  exact ⟨maximum, if_pos hlt⟩

variable (form : ArtifactResourceForm)

theorem checkInputSize_of_not_exceeded {a : Bytes} (h : ¬ limits.Exceeded a.length) :
    limits.checkInputSize form a = .ok a :=
  checkSize_of_not_exceeded h
    (⟨.inputArtifactTooLarge, some form, some ·, some a.length⟩) a

theorem checkInputSize_of_exceeded {a : Bytes} (h : limits.Exceeded a.length) :
    IsError .inputArtifactTooLarge form (limits.checkInputSize form a) := by
  obtain ⟨maximum, he⟩ := checkSize_of_exceeded h
    (⟨.inputArtifactTooLarge, some form, some ·, some a.length⟩) a
  exact ⟨_, he, rfl, rfl⟩

theorem checkOutputSize_of_not_exceeded {n : Nat} (h : ¬ limits.Exceeded n) :
    limits.checkOutputSize form n = .ok n :=
  checkSize_of_not_exceeded h (⟨.outputArtifactTooLarge, some form, some ·, some n⟩) n

theorem checkOutputSize_of_exceeded {n : Nat} (h : limits.Exceeded n) :
    IsError .outputArtifactTooLarge form (limits.checkOutputSize form n) := by
  obtain ⟨maximum, he⟩ := checkSize_of_exceeded h
    (⟨.outputArtifactTooLarge, some form, some ·, some n⟩) n
  exact ⟨_, he, rfl, rfl⟩

theorem checkOutputSizeLowerBound_of_not_exceeded {n : Nat} (h : ¬ limits.Exceeded n) :
    limits.checkOutputSizeLowerBound form n = .ok n :=
  checkSize_of_not_exceeded h (⟨.outputArtifactTooLarge, some form, some ·, none⟩) n

theorem checkOutputSizeLowerBound_of_exceeded {n : Nat} (h : limits.Exceeded n) :
    IsError .outputArtifactTooLarge form (limits.checkOutputSizeLowerBound form n) := by
  obtain ⟨maximum, he⟩ := checkSize_of_exceeded h
    (⟨.outputArtifactTooLarge, some form, some ·, none⟩) n
  exact ⟨_, he, rfl, rfl⟩

end

end ArtifactResourceLimits

/-! ## Sums of sizes -/

/-- The number as a `usize`. -/
def usizeOf (n : Nat) : Option Nat := if n < 2 ^ 64 then some n else none

theorem usizeOf_of_lt {n : Nat} (h : n < 2 ^ 64) : usizeOf n = some n := if_pos h

theorem usizeOf_of_le {n : Nat} (h : 2 ^ 64 ≤ n) : usizeOf n = none := if_neg (Nat.not_lt.mpr h)

theorem checkedAdd_eq (a b : Nat) : checkedAdd a b = usizeOf (a + b) := rfl

/-- A chain of checked additions checks the sum. -/
theorem bind_checkedAdd (a b : Nat) : (usizeOf a).bind (checkedAdd · b) = usizeOf (a + b) := by
  rcases Nat.lt_or_ge a (2 ^ 64) with h | h
  · rw [usizeOf_of_lt h]
    rfl
  · rw [usizeOf_of_le h, usizeOf_of_le (by omega)]
    rfl

theorem bind_bind_checkedAdd (a b : Nat) :
    ((usizeOf a).bind fun x => (usizeOf b).bind fun y => checkedAdd x y) = usizeOf (a + b) := by
  rcases Nat.lt_or_ge b (2 ^ 64) with h | h
  · rw [usizeOf_of_lt h]
    exact bind_checkedAdd a b
  · rw [usizeOf_of_le h, usizeOf_of_le (show 2 ^ 64 ≤ a + b by omega)]
    cases usizeOf a with
    | none => rfl
    | some x => rfl

namespace ArtifactResourceLimits

variable {limits : ArtifactResourceLimits} {n : Nat}

theorem not_exceeded_of_le (h : n ≤ limits.ceiling) : ¬ limits.Exceeded n := fun hex =>
  absurd (ceiling_lt_iff.mpr (.inl hex)) (Nat.not_lt.mpr h)

theorem lt_of_le_ceiling (h : n ≤ limits.ceiling) : n < 2 ^ 64 := by
  rcases Nat.lt_or_ge n (2 ^ 64) with hlt | hge
  · exact hlt
  · exact absurd (ceiling_lt_iff.mpr (.inr hge)) (Nat.not_lt.mpr h)

theorem exceeded_of_lt (h : limits.ceiling < n) (hn : n < 2 ^ 64) : limits.Exceeded n := by
  rcases ceiling_lt_iff.mp h with hex | hge
  · exact hex
  · exact absurd hn (Nat.not_lt.mpr hge)

end ArtifactResourceLimits

end Core
end YamlSigil
