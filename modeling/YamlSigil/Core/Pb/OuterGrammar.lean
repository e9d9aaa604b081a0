/-
The outer scanner accepts exactly its grammar.

The scan is a fold over the record sequence.  `Absorbed` says what one record does to the
scanner's variables.  `Scanned` relates the variables to the records read so far: the kept
values are the last ones of their fields, and each counter that a mode looks at counts the
records of its field.  `Allowed` is what the records read so far must satisfy for the scan
to have come this far.  Both are kept by one record, hence by the whole scan.
-/
import YamlSigil.Core.Pb.Outer

namespace YamlSigil
namespace Core
namespace Pb

open Format Wire

/-- Only the two known fields, length-delimited. -/
def AllKnown (rs : List Record) : Prop := ∀ r ∈ rs, r.IsLen ∧ (r.field = 1 ∨ r.field = 2)

instance (rs : List Record) : Decidable (AllKnown rs) :=
  inferInstanceAs (Decidable (∀ r ∈ rs, _))

/-- The record sequences that are an outer envelope under `mode`. -/
def OuterGrammar : OuterConformance → List Record → Prop
  | .strict, rs => AllKnown rs ∧ (bodies 1 rs).length ≤ 1 ∧ (bodies 2 rs).length = 1
  | .signatureStrict, rs => (bodies 2 rs).length = 1

instance (mode : OuterConformance) (rs : List Record) : Decidable (OuterGrammar mode rs) :=
  match mode with
  | .strict => inferInstanceAs (Decidable (_ ∧ _ ∧ _))
  | .signatureStrict => inferInstanceAs (Decidable (_ = _))

/-- The last value of the payload field, empty when it is absent. -/
def outerPayload (rs : List Record) : Bytes := (bodies 1 rs).getLast?.getD []

/-- The value of the signature field. -/
def outerCarrier (rs : List Record) : Bytes := (bodies 2 rs).getLast?.getD []

/-- The reference: split the wire into records and look at the sequence. -/
def outerReference (wire : Bytes) (mode : OuterConformance) : RawOuterDecomposeOutcome :=
  match split wire with
  | some rs =>
    if OuterGrammar mode rs then .ok (outerPayload rs) (outerCarrier rs) else .malformed
  | none => .malformed

structure Allowed (mode : OuterConformance) (rs : List Record) : Prop where
  signature_le : (bodies 2 rs).length ≤ 1
  known : mode = .strict → AllKnown rs
  payload_le : mode = .strict → (bodies 1 rs).length ≤ 1

structure Scanned (mode : OuterConformance) (rs : List Record) (s : OuterState) : Prop
    extends Allowed mode rs where
  payload : s.payload = (bodies 1 rs).getLast?
  carrier : s.signatureCarrier = (bodies 2 rs).getLast?
  signatureCount : s.signatureCount.toNat = (bodies 2 rs).length
  payloadCount : mode = .strict → s.payloadCount.toNat = (bodies 1 rs).length

theorem scanned_nil (mode : OuterConformance) : Scanned mode [] {} where
  signature_le := Nat.zero_le 1
  known := fun _ r hr => by cases hr
  payload_le := fun _ => Nat.zero_le 1
  payload := rfl
  carrier := rfl
  signatureCount := rfl
  payloadCount := fun _ => rfl

theorem Allowed.of_append {mode : OuterConformance} {rs ss : List Record}
    (h : Allowed mode (rs ++ ss)) : Allowed mode rs where
  signature_le := by
    have := h.signature_le
    rw [bodies_append, List.length_append] at this
    omega
  known := fun hm r hr => h.known hm r (List.mem_append_left ss hr)
  payload_le := fun hm => by
    have := h.payload_le hm
    rw [bodies_append, List.length_append] at this
    omega

/-- What the scan keeps of its counters. -/
structure Counting (mode : OuterConformance) (s : OuterState) : Prop where
  signature_le : s.signatureCount.toNat ≤ 1
  payload_le : mode = .strict → s.payloadCount.toNat ≤ 1

/-- What `s'` is when the scan has absorbed `r` in the state `s`. -/
structure Absorbed (mode : OuterConformance) (s : OuterState) (r : Record) (s' : OuterState) :
    Prop extends Counting mode s' where
  known : mode = .strict → r.IsLen ∧ (r.field = 1 ∨ r.field = 2)
  payload : s'.payload = (bodies 1 [r]).getLast?.or s.payload
  carrier : s'.signatureCarrier = (bodies 2 [r]).getLast?.or s.signatureCarrier
  payloadCount : s'.payloadCount = s.payloadCount + UInt32.ofNat (bodies 1 [r]).length
  signatureCount : s'.signatureCount.toNat = s.signatureCount.toNat + (bodies 2 [r]).length

theorem counting_start (mode : OuterConformance) : Counting mode {} where
  signature_le := Nat.zero_le 1
  payload_le := fun _ => Nat.zero_le 1

/-! ## One record -/

section
variable {mode : OuterConformance} {rs : List Record} {s s' : OuterState} {r : Record}

theorem bodies_length_cons (n : Nat) (r : Record) (rs : List Record) :
    (bodies n (r :: rs)).length = (bodies n [r]).length + (bodies n rs).length := by
  show (bodies n ([r] ++ rs)).length = _
  rw [bodies_append, List.length_append]

theorem bodies_length_snoc (n : Nat) (rs : List Record) (r : Record) :
    (bodies n (rs ++ [r])).length = (bodies n rs).length + (bodies n [r]).length := by
  rw [bodies_append, List.length_append]

theorem getLast?_bodies_snoc (n : Nat) (rs : List Record) (r : Record) :
    (bodies n (rs ++ [r])).getLast? = (bodies n [r]).getLast?.or (bodies n rs).getLast? := by
  rw [bodies_append, List.getLast?_append]

theorem AllKnown.snoc (h : AllKnown rs) (hr : r.IsLen ∧ (r.field = 1 ∨ r.field = 2)) :
    AllKnown (rs ++ [r]) := by
  intro r' hr'
  rcases List.mem_append.mp hr' with hr' | hr'
  · exact h r' hr'
  · rw [List.mem_singleton.mp hr']
    exact hr

theorem succ_toNat {n : UInt32} (h : n.toNat ≤ 1) : (n + 1).toNat = n.toNat + 1 := by
  rw [UInt32.toNat_add]
  show (n.toNat + 1) % 2 ^ 32 = _
  omega

theorem toNat_le_one_iff {n : UInt32} : ¬ n > 1 ↔ n.toNat ≤ 1 := by
  rw [gt_iff_lt, UInt32.lt_iff_toNat_lt]
  exact Nat.not_lt

theorem ofNat_field_eq_iff (hf : ValidField r.field) {n : Nat} (hn : n < 2 ^ 29) :
    UInt32.ofNat r.field = UInt32.ofNat n ↔ r.field = n := by
  obtain ⟨-, hlt⟩ := hf
  rw [← UInt32.toNat_inj, UInt32.toNat_ofNat', UInt32.toNat_ofNat']
  omega

theorem storeField_of_unknown {field : UInt32} (h1 : field ≠ 1) (h2 : field ≠ 2) (b : Bytes) :
    storeField mode s field b = if mode = .strict then none else some s := by
  unfold storeField
  rw [if_neg h1, if_neg h2]

/-- A record is a payload, a signature or nothing that is kept. -/
theorem absorb_cases (mode : OuterConformance) (s : OuterState) (hf : ValidField r.field) :
    (∃ b, r = ⟨1, .len b⟩) ∨ (∃ b, r = ⟨2, .len b⟩) ∨
      (bodies 1 [r] = [] ∧ bodies 2 [r] = [] ∧ ¬ (r.IsLen ∧ (r.field = 1 ∨ r.field = 2)) ∧
        absorb mode s r = if mode = .strict then none else some s) := by
  by_cases hl : r.IsLen
  · obtain ⟨field, value⟩ := r
    obtain ⟨b, rfl⟩ := hl
    by_cases h1 : field = 1
    · exact .inl ⟨b, by rw [h1]⟩
    · by_cases h2 : field = 2
      · exact .inr (.inl ⟨b, by rw [h2]⟩)
      · refine .inr (.inr ⟨bodies_cons_of_ne h1 [], bodies_cons_of_ne h2 [],
          fun h => h.2.elim h1 h2, ?_⟩)
        exact storeField_of_unknown
          (fun e => h1 ((ofNat_field_eq_iff hf (n := 1) (by decide)).mp e))
          (fun e => h2 ((ofNat_field_eq_iff hf (n := 2) (by decide)).mp e)) b
  · exact .inr (.inr ⟨bodies_cons_of_not_len hl 1 [], bodies_cons_of_not_len hl 2 [],
      fun h => hl h.1, absorb_of_not_len hl mode s⟩)

/-- All that a record does to the variables. -/
theorem Counting.absorb (h : Counting mode s) (hf : ValidField r.field)
    (hs : absorb mode s r = some s') : Absorbed mode s r s' := by
  obtain ⟨b, rfl⟩ | ⟨b, rfl⟩ | ⟨h1, h2, -, habsorb⟩ := absorb_cases mode s hf
  · have hs : storeField mode s 1 b = some s' := hs
    unfold storeField at hs
    rw [if_pos rfl, Option.ite_none_left_eq_some, Option.some.injEq] at hs
    obtain ⟨hcount, rfl⟩ := hs
    have hle : mode = .strict → (s.payloadCount + 1).toNat ≤ 1 := fun hm =>
      toNat_le_one_iff.mp fun hgt => hcount ⟨hm, hgt⟩
    exact ⟨⟨h.signature_le, hle⟩, fun _ => ⟨⟨b, rfl⟩, .inl rfl⟩, rfl, rfl, rfl, rfl⟩
  · have hs : storeField mode s 2 b = some s' := hs
    unfold storeField at hs
    rw [if_neg (by decide), if_pos rfl, Option.ite_none_left_eq_some, Option.some.injEq] at hs
    obtain ⟨hcount, rfl⟩ := hs
    exact ⟨⟨toNat_le_one_iff.mp hcount, h.payload_le⟩, fun _ => ⟨⟨b, rfl⟩, .inr rfl⟩, rfl, rfl,
      (UInt32.add_zero _).symm, succ_toNat h.signature_le⟩
  · rw [habsorb, Option.ite_none_left_eq_some, Option.some.injEq] at hs
    obtain ⟨hm, rfl⟩ := hs
    refine ⟨h, fun e => absurd e hm, ?_, ?_, ?_, ?_⟩
    · rw [h1]
      rfl
    · rw [h2]
      rfl
    · rw [h1]
      exact (UInt32.add_zero _).symm
    · rw [h2]
      rfl

theorem Counting.step {wire : Bytes} (h : Counting mode s)
    (hstep : outerStep wire mode s = some s') : Counting mode s' := by
  obtain ⟨e, t, r, s₁, -, hr, habsorb, rfl⟩ := record_of_outerStep hstep
  have habsorbed := h.absorb hr.validField habsorb
  exact ⟨habsorbed.signature_le, habsorbed.payload_le⟩

/-- A record is absorbed unless a counter or the strict mode is against it. -/
theorem exists_absorb (hf : ValidField r.field)
    (hsignature : s.signatureCount.toNat + (bodies 2 [r]).length ≤ 1)
    (hstrict : mode = .strict → (r.IsLen ∧ (r.field = 1 ∨ r.field = 2)) ∧
      s.payloadCount.toNat + (bodies 1 [r]).length ≤ 1) :
    ∃ s', absorb mode s r = some s' := by
  obtain ⟨b, rfl⟩ | ⟨b, rfl⟩ | ⟨-, -, hunknown, habsorb⟩ := absorb_cases mode s hf
  · have hfits : ¬ (mode = .strict ∧ s.payloadCount + 1 > 1) := by
      intro h
      rcases h with ⟨hm, hgt⟩
      have hle : s.payloadCount.toNat + 1 ≤ 1 := (hstrict hm).2
      exact toNat_le_one_iff.mpr (by rw [succ_toNat (by omega)]; exact hle) hgt
    show ∃ s', (if mode = .strict ∧ s.payloadCount + 1 > 1 then none else some _) = some s'
    rw [if_neg hfits]
    exact ⟨_, rfl⟩
  · have hle : s.signatureCount.toNat + 1 ≤ 1 := hsignature
    have hfits : ¬ s.signatureCount + 1 > 1 :=
      toNat_le_one_iff.mpr (by rw [succ_toNat (by omega)]; exact hle)
    show ∃ s', (if s.signatureCount + 1 > 1 then none else some _) = some s'
    rw [if_neg hfits]
    exact ⟨_, rfl⟩
  · rw [habsorb, if_neg fun hm => hunknown (hstrict hm).1]
    exact ⟨s, rfl⟩

theorem Scanned.counting (h : Scanned mode rs s) : Counting mode s where
  signature_le := by
    rw [h.signatureCount]
    exact h.signature_le
  payload_le := fun hm => by
    rw [h.payloadCount hm]
    exact h.payload_le hm

theorem Scanned.absorb (h : Scanned mode rs s) (hf : ValidField r.field)
    (hs : Pb.absorb mode s r = some s') : Scanned mode (rs ++ [r]) s' := by
  have hr := h.counting.absorb hf hs
  have hsignature : s'.signatureCount.toNat = (bodies 2 (rs ++ [r])).length := by
    rw [bodies_length_snoc, hr.signatureCount, h.signatureCount]
  have hpayload : mode = .strict → s'.payloadCount.toNat = (bodies 1 (rs ++ [r])).length := by
    intro hm
    -- one record more is two at most, so the sum does not wrap
    have hle := h.payload_le hm
    have hone : (bodies 1 [r]).length ≤ 1 := List.length_filterMap_le _ [r]
    rw [bodies_length_snoc, hr.payloadCount, UInt32.toNat_add, UInt32.toNat_ofNat',
      h.payloadCount hm]
    omega
  refine ⟨⟨?_, fun hm => ?_, fun hm => ?_⟩, ?_, ?_, hsignature, hpayload⟩
  · rw [← hsignature]
    exact hr.signature_le
  · exact (h.known hm).snoc (hr.known hm)
  · rw [← hpayload hm]
    exact hr.payload_le hm
  · rw [getLast?_bodies_snoc, hr.payload, h.payload]
  · rw [getLast?_bodies_snoc, hr.carrier, h.carrier]

theorem Scanned.exists_absorb (h : Scanned mode rs s) (hf : ValidField r.field)
    (ha : Allowed mode (rs ++ [r])) : ∃ s', Pb.absorb mode s r = some s' := by
  refine Pb.exists_absorb hf ?_ fun hm => ⟨?_, ?_⟩
  · have hle := ha.signature_le
    rwa [bodies_length_snoc, ← h.signatureCount] at hle
  · exact ha.known hm r (List.mem_append_right rs (List.mem_singleton_self r))
  · have hle := ha.payload_le hm
    rwa [bodies_length_snoc, ← h.payloadCount hm] at hle

/-! ## The whole scan -/

theorem Scanned.foldlM {ss : List Record} (h : Scanned mode rs s)
    (hf : ∀ r ∈ ss, ValidField r.field) (hs : ss.foldlM (Pb.absorb mode) s = some s') :
    Scanned mode (rs ++ ss) s' := by
  induction ss generalizing rs s with
  | nil =>
    cases hs
    rwa [List.append_nil]
  | cons r ss ih =>
    rw [List.foldlM_cons] at hs
    obtain ⟨s₁, hr, hs⟩ := Option.bind_eq_some_iff.mp hs
    rw [List.append_cons]
    exact ih (h.absorb (hf r List.mem_cons_self) hr)
      (fun r hr => hf r (List.mem_cons_of_mem _ hr)) hs

theorem Scanned.exists_foldlM {ss : List Record} (h : Scanned mode rs s)
    (hf : ∀ r ∈ ss, ValidField r.field) (ha : Allowed mode (rs ++ ss)) :
    ∃ s', ss.foldlM (Pb.absorb mode) s = some s' := by
  induction ss generalizing rs s with
  | nil => exact ⟨s, rfl⟩
  | cons r ss ih =>
    rw [List.append_cons] at ha
    have hfield := hf r List.mem_cons_self
    obtain ⟨s₁, hr⟩ := h.exists_absorb hfield ha.of_append
    obtain ⟨s', hs'⟩ := ih (h.absorb hfield hr) (fun r hr => hf r (List.mem_cons_of_mem _ hr)) ha
    refine ⟨s', ?_⟩
    rw [List.foldlM_cons, hr]
    exact hs'

end

theorem outerGrammar_iff {mode : OuterConformance} {rs : List Record} :
    OuterGrammar mode rs ↔ Allowed mode rs ∧ (bodies 2 rs).length = 1 := by
  cases mode with
  | strict =>
    constructor
    · intro h
      rcases h with ⟨hk, hp, hs⟩
      exact ⟨⟨Nat.le_of_eq hs, fun _ => hk, fun _ => hp⟩, hs⟩
    · intro h
      rcases h with ⟨ha, hs⟩
      exact ⟨ha.known rfl, ha.payload_le rfl, hs⟩
  | signatureStrict =>
    refine ⟨fun hs => ⟨⟨Nat.le_of_eq hs, fun hm => ?_, fun hm => ?_⟩, hs⟩, And.right⟩
    · cases hm
    · cases hm

/-- The scanner as a grammar over the record sequence. -/
theorem decomposeRawOuter_eq_ok_iff {wire p c : Bytes} {mode : OuterConformance} :
    decomposeRawOuter wire mode = .ok p c ↔
      ∃ rs, Records wire rs ∧ OuterGrammar mode rs ∧ p = outerPayload rs ∧ c = outerCarrier rs := by
  unfold decomposeRawOuter
  rw [scanFrom_eq_ok_iff]
  constructor
  · intro h
    rcases h with ⟨rs, s, hrs, hfold, hfin⟩
    have hscan := (scanned_nil mode).foldlM hrs.validField hfold
    rw [List.nil_append] at hscan
    unfold OuterState.finish at hfin
    rw [hscan.carrier, hscan.payload] at hfin
    cases hlast : (bodies 2 rs).getLast? with
    | none =>
      rw [hlast] at hfin
      cases hfin
    | some b =>
      rw [hlast] at hfin
      have hne : (bodies 2 rs).length ≠ 0 := fun h0 => by
        rw [List.eq_nil_of_length_eq_zero h0] at hlast
        cases hlast
      have hone : (bodies 2 rs).length = 1 := by
        have := hscan.signature_le
        omega
      injection hfin with hp hc
      refine ⟨rs, hrs, outerGrammar_iff.mpr ⟨hscan.toAllowed, hone⟩, hp.symm, ?_⟩
      unfold outerCarrier
      rw [hlast, ← hc]
      rfl
  · intro h
    rcases h with ⟨rs, hrs, hg, hp, hc⟩
    obtain ⟨ha, hone⟩ := outerGrammar_iff.mp hg
    obtain ⟨s, hfold⟩ := (scanned_nil mode).exists_foldlM hrs.validField ha
    have hscan := (scanned_nil mode).foldlM hrs.validField hfold
    rw [List.nil_append] at hscan
    refine ⟨rs, s, hrs, hfold, ?_⟩
    obtain ⟨b, hb⟩ := List.length_eq_one_iff.mp hone
    unfold OuterState.finish
    rw [hscan.carrier, hscan.payload, hp, hc]
    unfold outerCarrier outerPayload
    rw [hb]
    rfl

theorem OuterGrammar.of_strict {rs : List Record} (h : OuterGrammar .strict rs)
    (mode : OuterConformance) : OuterGrammar mode rs := by
  cases mode with
  | strict => exact h
  | signatureStrict => exact h.2.2

/-- The strict mode accepts less, and reads the same from what it accepts. -/
theorem decomposeRawOuter_of_strict {wire p c : Bytes}
    (h : decomposeRawOuter wire .strict = .ok p c)
    (mode : OuterConformance) : decomposeRawOuter wire mode = .ok p c := by
  obtain ⟨rs, hrs, hg, hp, hc⟩ := decomposeRawOuter_eq_ok_iff.mp h
  exact decomposeRawOuter_eq_ok_iff.mpr ⟨rs, hrs, hg.of_strict mode, hp, hc⟩

theorem outerReference_eq_ok_iff {wire p c : Bytes} {mode : OuterConformance} :
    outerReference wire mode = .ok p c ↔
      ∃ rs, Records wire rs ∧ OuterGrammar mode rs ∧ p = outerPayload rs ∧ c = outerCarrier rs := by
  unfold outerReference
  constructor
  · intro h
    cases hs : split wire with
    | none =>
      rw [hs] at h
      cases h
    | some rs =>
      rw [hs] at h
      by_cases hg : OuterGrammar mode rs
      · simp only [hg, if_true] at h
        injection h with hp hc
        exact ⟨rs, split_eq_some_iff.mp hs, hg, hp.symm, hc.symm⟩
      · simp only [hg, if_false] at h
        cases h
  · intro h
    rcases h with ⟨rs, hrs, hg, hp, hc⟩
    rw [split_eq_some_iff.mpr hrs, hp, hc]
    exact if_pos hg

theorem decomposeRawOuter_eq_outerReference (wire : Bytes) (mode : OuterConformance) :
    decomposeRawOuter wire mode = outerReference wire mode := by
  cases hr : outerReference wire mode with
  | ok p c => exact decomposeRawOuter_eq_ok_iff.mpr (outerReference_eq_ok_iff.mp hr)
  | malformed =>
    cases hd : decomposeRawOuter wire mode with
    | malformed => rfl
    | ok p c =>
      rw [outerReference_eq_ok_iff.mpr (decomposeRawOuter_eq_ok_iff.mp hd)] at hr
      cases hr

/-- Main result of this file: the scanner agrees with the reference on every wire
and in each mode, and a wire the strict mode accepts is accepted by the other
mode with the same payload and carrier. -/
theorem outer_scan_accepts_exactly_its_grammar (wire : Bytes) :
    (∀ mode, decomposeRawOuter wire mode = outerReference wire mode) ∧
    ∀ p c, decomposeRawOuter wire .strict = .ok p c →
      decomposeRawOuter wire .signatureStrict = .ok p c :=
  ⟨decomposeRawOuter_eq_outerReference wire,
    fun _ _ h => decomposeRawOuter_of_strict h .signatureStrict⟩

/-- A letter and the start of a carrier, in both modes. -/
theorem outer_scan_letter :
    decomposeRawOuter [0x0A, 0x01, 0x72, 0x12, 0x02, 0x08, 0x01] .strict =
        .ok [0x72] [0x08, 0x01] ∧
      decomposeRawOuter [0x0A, 0x01, 0x72, 0x12, 0x02, 0x08, 0x01] .signatureStrict =
        .ok [0x72] [0x08, 0x01] := by
  have h : decomposeRawOuter [0x0A, 0x01, 0x72, 0x12, 0x02, 0x08, 0x01] .strict =
      .ok [0x72] [0x08, 0x01] := by decide +kernel
  exact ⟨h, (outer_scan_accepts_exactly_its_grammar _).2 _ _ h⟩

end Pb
end Core
end YamlSigil
