/-
When the outer scan faults.

Every pass moves the cursor on inside the input, so the passes run out before the input
does.  The count of payload records is bounded by an early return in the strict mode only:
in the other one it has room for the records of the input or it does not.  `Overflows`
says of the octets behind the cursor that it does not, and a pass keeps this either way.
-/
import YamlSigil.Core.Pb.Checked

namespace YamlSigil
namespace Core
namespace Pb
namespace Checked

open Format Wire Control

section
variable {T : Target} {wire : Bytes} {mode : OuterConformance} {s s' : OuterState} {r : Record}

/-! ## One pass -/

/-- The step either has room or faults. -/
theorem outerStep_cases (hb : wire.length < 2 ^ (T.bits - 1)) (h : Counting mode s) :
    (Room wire s ∧ outerStep T wire mode s = .ofOption (Pb.outerStep wire mode s)) ∨
      outerStep T wire mode s = .fault .payloadCount := by
  by_cases hroom : Room wire s
  · exact .inl ⟨hroom, outerStep_eq hb h hroom⟩
  · simp only [Room, not_forall] at hroom
    obtain ⟨e, t, b, hsplit, hr, hfull⟩ := hroom
    exact .inr (outerStep_full hb hsplit hr hfull)

/-- A pass that goes on is a step of the plain scan. -/
theorem outerPass_again (hb : wire.length < 2 ^ (T.bits - 1)) (h : Counting mode s)
    (hpass : Outcome.Steps (outerPass T wire mode) s s') :
    Room wire s ∧ Pb.outerStep wire mode s = some s' := by
  unfold Outcome.Steps outerPass at hpass
  split at hpass
  · rcases outerStep_cases hb h with ⟨hroom, hstep⟩ | hstep
    · rw [hstep] at hpass
      refine ⟨hroom, ?_⟩
      cases hplain : Pb.outerStep wire mode s with
      | none =>
        rw [hplain] at hpass
        cases hpass
      | some s₁ =>
        rw [hplain] at hpass
        cases hpass
        rfl
    · rw [hstep] at hpass
      cases hpass
  · cases hpass

theorem outerPass_advances (hb : wire.length < 2 ^ (T.bits - 1))
    (hreach : Outcome.Reaches (outerPass T wire mode) {} s)
    (hpass : Outcome.Steps (outerPass T wire mode) s s') :
    s.index < s'.index ∧ s'.index ≤ wire.length := by
  have hcounting : Counting mode s := hreach.keeps
    (fun _ _ h hstep => h.step (outerPass_again hb h hstep).2) (counting_start mode)
  exact index_lt_of_outerStep (outerPass_again hb hcounting hpass).2

/-- A pass leaves fewer octets behind the cursor. -/
theorem outerPass_shrinks (hb : wire.length < 2 ^ (T.bits - 1)) (h : Counting mode s)
    (hpass : Outcome.Steps (outerPass T wire mode) s s') :
    Counting mode s' ∧ wire.length - s'.index < wire.length - s.index := by
  obtain ⟨-, hplain⟩ := outerPass_again hb h hpass
  obtain ⟨hlt, hle⟩ := index_lt_of_outerStep hplain
  exact ⟨h.step hplain, by omega⟩

/-! ## Too many payload records -/

/-- The octets behind the cursor begin with records whose payloads overflow the counter
and whose signatures do not end the scan. -/
def Overflows (wire : Bytes) (s : OuterState) : Prop :=
  ∃ e t rs, wire.drop s.index = e ++ t ∧ Records e rs ∧
    2 ^ 32 ≤ s.payloadCount.toNat + (bodies 1 rs).length ∧
    s.signatureCount.toNat + (bodies 2 rs).length ≤ 1

/-- A record that there is room for is counted. -/
theorem absorb_counts {e t : Bytes} {s₁ : OuterState} (h : Counting mode s)
    (hroom : Room wire s) (hsplit : wire.drop s.index = e ++ t) (hr : IsRecord e r)
    (habsorb : Pb.absorb mode s r = some s₁) :
    s₁.payloadCount.toNat = s.payloadCount.toNat + (bodies 1 [r]).length ∧
      s₁.signatureCount.toNat = s.signatureCount.toNat + (bodies 2 [r]).length := by
  have habsorbed := h.absorb hr.validField habsorb
  have hadd : s.payloadCount.toNat + (bodies 1 [r]).length < 2 ^ 32 := by
    have hlt := s.payloadCount.toNat_lt
    obtain ⟨b, rfl⟩ | ⟨b, rfl⟩ | ⟨h1, -⟩ := absorb_cases mode s hr.validField
    · rw [bodies_cons_self 1 b []]
      exact hroom e t b hsplit hr
    · rwa [bodies_cons_of_ne (show 2 ≠ 1 by decide) []]
    · rwa [h1]
  refine ⟨?_, habsorbed.signatureCount⟩
  rw [habsorbed.payloadCount, UInt32.toNat_add, UInt32.toNat_ofNat']
  omega

theorem room_of_not_overflows (h : Counting mode s) (ho : ¬ Overflows wire s) : Room wire s := by
  intro e t b hsplit hr
  by_cases hroom : s.payloadCount.toNat + 1 < 2 ^ 32
  · exact hroom
  exfalso
  refine ho ⟨e, t, [⟨1, .len b⟩], hsplit, Records.single hr, ?_, ?_⟩
  · rw [bodies_cons_self 1 b []]
    exact Nat.not_lt.mp hroom
  · rw [bodies_cons_of_ne (show 1 ≠ 2 by decide) []]
    exact h.signature_le

theorem not_overflows_step (h : Counting mode s) (hroom : Room wire s)
    (hstep : Pb.outerStep wire mode s = some s') (ho : ¬ Overflows wire s) :
    ¬ Overflows wire s' := by
  intro ho'
  rcases ho' with ⟨e', t', rs, hsplit', hrs, hpayload, hsignature⟩
  obtain ⟨e, t, r, s₁, hsplit, hr, habsorb, rfl⟩ := record_of_outerStep hstep
  obtain ⟨hp, hq⟩ := absorb_counts h hroom hsplit hr habsorb
  have hrest : wire.drop (s₁.seek (s.index + e.length)).index = t := drop_add hsplit
  have hpayload : 2 ^ 32 ≤ s₁.payloadCount.toNat + (bodies 1 rs).length := hpayload
  have hsignature : s₁.signatureCount.toNat + (bodies 2 rs).length ≤ 1 := hsignature
  refine ho ⟨e ++ e', t', r :: rs, ?_, .cons hr hrs, ?_, ?_⟩
  · rw [hsplit, ← hrest, hsplit', List.append_assoc]
  · rw [bodies_length_cons]
    omega
  · rw [bodies_length_cons]
    omega

/-- A counter that overflows in the end has a record to read now. -/
theorem Overflows.head (ho : Overflows wire s) :
    ∃ b rest t r rs, wire.drop s.index = b ++ (rest ++ t) ∧ IsRecord b r ∧ Records rest rs ∧
      2 ^ 32 ≤ s.payloadCount.toNat + ((bodies 1 [r]).length + (bodies 1 rs).length) ∧
      s.signatureCount.toNat + ((bodies 2 [r]).length + (bodies 2 rs).length) ≤ 1 := by
  obtain ⟨e, t, rs, hsplit, hrs, hpayload, hsignature⟩ := ho
  cases hrs with
  | nil =>
    have hlt := s.payloadCount.toNat_lt
    rw [bodies_nil, List.length_nil] at hpayload
    omega
  | @cons b rest r rs hr hrs =>
    rw [bodies_length_cons] at hpayload hsignature
    rw [List.append_assoc] at hsplit
    exact ⟨b, rest, t, r, rs, hsplit, hr, hrs, hpayload, hsignature⟩

theorem Overflows.index_lt (ho : Overflows wire s) : s.index < wire.length := by
  obtain ⟨b, _, _, _, _, hsplit, hr, -⟩ := ho.head
  have hpos := hr.length_pos
  have hle := add_le_of_drop hsplit hpos
  omega

/-- With room now, a step comes first. -/
theorem Overflows.step (ho : Overflows wire s) (hm : mode ≠ .strict) (h : Counting mode s)
    (hroom : Room wire s) : ∃ s', Pb.outerStep wire mode s = some s' ∧ Overflows wire s' := by
  obtain ⟨b, rest, t, r, rs, hsplit, hr, hrs, hpayload, hsignature⟩ := ho.head
  obtain ⟨s₁, habsorb⟩ := exists_absorb (s := s) hr.validField (by omega)
    fun hstrict => absurd hstrict hm
  obtain ⟨hp, hq⟩ := absorb_counts h hroom hsplit hr habsorb
  have hpayload : 2 ^ 32 ≤ s₁.payloadCount.toNat + (bodies 1 rs).length := by omega
  have hsignature : s₁.signatureCount.toNat + (bodies 2 rs).length ≤ 1 := by omega
  exact ⟨s₁.seek (s.index + b.length), outerStep_of_record hsplit hr habsorb, rest, t, rs,
    drop_add hsplit, hrs, hpayload, hsignature⟩

/-! ## The whole scan -/

/-- The counter has room for the payload records behind the cursor. -/
def Fits (wire : Bytes) (mode : OuterConformance) (s : OuterState) : Prop :=
  mode = .strict ∨ ¬ Overflows wire s

theorem Fits.room (hfits : Fits wire mode s) (h : Counting mode s) : Room wire s := by
  rcases hfits with hm | ho
  · intro _ _ _ _ _
    have := h.payload_le hm
    omega
  · exact room_of_not_overflows h ho

theorem Fits.step (hfits : Fits wire mode s) (h : Counting mode s)
    (hstep : Pb.outerStep wire mode s = some s') : Fits wire mode s' := by
  have hroom := hfits.room h
  rcases hfits with hm | ho
  · exact .inl hm
  · exact .inr (not_overflows_step h hroom hstep ho)

/-- A pass with room for what it reads does what the plain scan does. -/
theorem outerPass_of_fits (hb : wire.length < 2 ^ (T.bits - 1)) (h : Counting mode s)
    (hfits : Fits wire mode s) :
    Outcome.value (scanFrom wire mode s) =
      (outerPass T wire mode s >>= Outcome.next fun s => .value (scanFrom wire mode s)) := by
  unfold outerPass
  by_cases hlt : s.index < wire.length
  · rw [if_pos hlt, outerStep_eq hb h (hfits.room h)]
    cases hstep : Pb.outerStep wire mode s with
    | none =>
      rw [scanFrom_of_none hlt hstep]
      rfl
    | some s' =>
      rw [scanFrom_of_some hlt hstep]
      rfl
  · rw [if_neg hlt, scanFrom, if_neg hlt]
    rfl

/-- What fits is scanned as by the plain scan, within as many passes as there are octets. -/
theorem decomposeRawOuter_of_fits {wire : WireSlice T} (hfits : Fits wire.octets mode {}) :
    decomposeRawOuter T wire mode = .value (Pb.decomposeRawOuter wire.octets mode) := by
  have hb := wire.length_lt
  have hstep : ∀ s s', Counting mode s ∧ Fits wire.octets mode s →
      Outcome.Steps (outerPass T wire.octets mode) s s' →
      (Counting mode s' ∧ Fits wire.octets mode s') ∧
        wire.octets.length - s'.index < wire.octets.length - s.index := by
    intro s s' hs hpass
    rcases hs with ⟨hcounting, hfits⟩
    obtain ⟨-, hplain⟩ := outerPass_again hb hcounting hpass
    obtain ⟨hcounting', hlt⟩ := outerPass_shrinks hb hcounting hpass
    exact ⟨⟨hcounting', hfits.step hcounting hplain⟩, hlt⟩
  exact Outcome.loop_eq .endless (fun s hs => outerPass_of_fits hb hs.1 hs.2) hstep
    ⟨counting_start mode, hfits⟩ (Nat.lt_succ_self _)

/-- A pass with too many payloads in front of it faults or goes on. -/
theorem Overflows.pass (ho : Overflows wire s) (hb : wire.length < 2 ^ (T.bits - 1))
    (hm : mode ≠ .strict) (h : Counting mode s) :
    outerPass T wire mode s = .fault .payloadCount ∨
      ∃ s', outerPass T wire mode s = .value (.again s') ∧ Overflows wire s' := by
  unfold outerPass
  rw [if_pos ho.index_lt]
  rcases outerStep_cases hb h with ⟨hroom, hstep⟩ | hstep
  · obtain ⟨s', hplain, ho'⟩ := ho.step hm h hroom
    refine .inr ⟨s', ?_, ho'⟩
    rw [hstep, hplain]
    rfl
  · rw [hstep]
    exact .inl rfl

/-- What does not fit stops the scan at the counter of payload records. -/
theorem decomposeRawOuter_of_not_fits {wire : WireSlice T} (hfits : ¬ Fits wire.octets mode {}) :
    decomposeRawOuter T wire mode = .fault .payloadCount := by
  have hb := wire.length_lt
  obtain ⟨hm, ho⟩ := not_or.mp hfits
  -- while the counter overflows in the end, the rest of the scan is the fault
  let rest : OuterState → Scan RawOuterDecomposeOutcome := fun _ => .fault .payloadCount
  have hunfolds : ∀ s, Counting mode s ∧ Overflows wire.octets s →
      rest s = outerPass T wire.octets mode s >>= Outcome.next rest := by
    intro s hs
    rcases hs.2.pass hb hm hs.1 with hfault | ⟨s', hagain, -⟩
    · rw [hfault, Outcome.fault_bind]
    · rw [hagain]
      rfl
  have hstep : ∀ s s', Counting mode s ∧ Overflows wire.octets s →
      Outcome.Steps (outerPass T wire.octets mode) s s' →
      (Counting mode s' ∧ Overflows wire.octets s') ∧
        wire.octets.length - s'.index < wire.octets.length - s.index := by
    intro s s' hs hpass
    obtain ⟨hcounting', hlt⟩ := outerPass_shrinks hb hs.1 hpass
    rcases hs.2.pass hb hm hs.1 with hfault | ⟨s₁, hagain, ho'⟩
    · rw [Outcome.Steps, hfault] at hpass
      cases hpass
    · rw [Outcome.Steps, hagain] at hpass
      cases hpass
      exact ⟨⟨hcounting', ho'⟩, hlt⟩
  exact Outcome.loop_eq .endless hunfolds hstep
    ⟨counting_start mode, not_not.mp ho⟩ (Nat.lt_succ_self _)

end

/-! ## The scan as a whole is faultless when the payloads fit -/

/-- Every iteration moves the cursor on, and not past the end. -/
def Advances (T : Target) (wire : WireSlice T) (mode : OuterConformance) : Prop :=
  ∀ s s', Outcome.Reaches (outerPass T wire.octets mode) {} s →
    Outcome.Steps (outerPass T wire.octets mode) s s' →
    s.index < s'.index ∧ s'.index ≤ wire.octets.length

/-- The scan advances, and no operation of it faults.  To need more passes than the input
has octets is a fault too. -/
structure Faultless (T : Target) (wire : WireSlice T) (mode : OuterConformance) : Prop where
  advances : Advances T wire mode
  no_fault : ∀ e, decomposeRawOuter T wire mode ≠ .fault e

/-- Outside the strict mode, records in front of a second signature hold fewer than
`2 ^ 32` payloads. -/
def PayloadsFit (wire : Bytes) : OuterConformance → Prop
  | .strict => True
  | .signatureStrict => ∀ e t rs, wire = e ++ t → Records e rs → (bodies 2 rs).length ≤ 1 →
      (bodies 1 rs).length < 2 ^ 32

theorem fits_start_iff {wire : Bytes} {mode : OuterConformance} :
    Fits wire mode {} ↔ PayloadsFit wire mode := by
  cases mode with
  | strict => exact ⟨fun _ => trivial, fun _ => .inl rfl⟩
  | signatureStrict =>
    have hzero : (0 : UInt32).toNat = 0 := rfl
    constructor
    · intro hfits e t rs hsplit hrs hsignature
      rcases hfits with hm | ho
      · cases hm
      by_cases hlt : (bodies 1 rs).length < 2 ^ 32
      · exact hlt
      · exact absurd ⟨e, t, rs, hsplit, hrs, by simp only [hzero]; omega,
          by simp only [hzero]; omega⟩ ho
    · intro h
      refine .inr fun ho => ?_
      obtain ⟨e, t, rs, hsplit, hrs, hpayload, hsignature⟩ := ho
      simp only [hzero, Nat.zero_add] at hpayload hsignature
      exact absurd (h e t rs hsplit hrs hsignature) (Nat.not_lt.mpr hpayload)

theorem advances (T : Target) (wire : WireSlice T) (mode : OuterConformance) :
    Advances T wire mode := fun _ _ hreach hpass =>
  outerPass_advances wire.length_lt hreach hpass

theorem faultless_of_fits {T : Target} {wire : WireSlice T} {mode : OuterConformance}
    (hfits : PayloadsFit wire.octets mode) : Faultless T wire mode where
  advances := advances T wire mode
  no_fault := by
    intro e he
    rw [decomposeRawOuter_of_fits (fits_start_iff.mpr hfits)] at he
    cases he

theorem fault_of_not_fits {T : Target} {wire : WireSlice T} {mode : OuterConformance}
    (hfits : ¬ PayloadsFit wire.octets mode) :
    decomposeRawOuter T wire mode = .fault .payloadCount :=
  decomposeRawOuter_of_not_fits (fun h => hfits (fits_start_iff.mp h))

/-- Whatever the input, nothing but the count of payload records can fault. -/
theorem outer_scan_faultless_iff (T : Target) (wire : WireSlice T) (mode : OuterConformance) :
    (Faultless T wire mode ↔ PayloadsFit wire.octets mode) ∧ Advances T wire mode ∧
      ∀ e, decomposeRawOuter T wire mode = .fault e → e = .payloadCount := by
  refine ⟨⟨fun h => ?_, faultless_of_fits⟩, advances T wire mode, fun e he => ?_⟩
  · by_cases hfits : PayloadsFit wire.octets mode
    · exact hfits
    · exact absurd (fault_of_not_fits hfits) (h.no_fault .payloadCount)
  · by_cases hfits : PayloadsFit wire.octets mode
    · exact absurd he ((faultless_of_fits hfits).no_fault e)
    · rw [fault_of_not_fits hfits] at he
      cases he
      rfl

/-- A record has a tag and a value. -/
theorem two_mul_length_le {w : Bytes} {rs : List Record} (h : Records w rs) :
    2 * rs.length ≤ w.length := by
  induction h with
  | nil => exact Nat.le_refl 0
  | @cons b rest r rs hr _ ih =>
    have htwo : 2 ≤ b.length := by
      cases hr with
      | mk htag _ hvalue =>
        have htag := htag.length_pos
        have hvalue := hvalue.length_pos
        rw [List.length_append]
        omega
    rw [List.length_cons, List.length_append]
    omega

/-- The counter takes more than eight gibibytes to overflow, which a target with 32 bits
cannot address. -/
theorem faultless_of_length_lt {T : Target} {wire : WireSlice T} (mode : OuterConformance)
    (h : wire.octets.length < 2 ^ 33) : Faultless T wire mode := by
  apply faultless_of_fits
  cases mode with
  | strict => trivial
  | signatureStrict =>
    intro e t rs hsplit hrs _
    have htotal := congrArg List.length hsplit
    have hrecords := two_mul_length_le hrs
    have hpayloads : (bodies 1 rs).length ≤ rs.length := List.length_filterMap_le _ rs
    rw [List.length_append] at htotal
    omega

theorem faultless_of_bits_le {T : Target} (hT : T.bits ≤ 32) (wire : WireSlice T)
    (mode : OuterConformance) : Faultless T wire mode := by
  have hlen := wire.length_lt
  have hhalf : 2 ^ (T.bits - 1) ≤ 2 ^ 31 := Nat.pow_le_pow_right (by omega) (by omega)
  exact faultless_of_length_lt mode (by omega)

/-! ## An artifact that overflows the counter -/

/-- Empty payload records and an empty signature record behind them. -/
def floodOctets (n : Nat) : Bytes := (List.replicate n [0x0A, 0x00]).flatten ++ [0x12, 0x00]

def floodRecords (n : Nat) : List Record :=
  List.replicate n ⟨1, .len []⟩ ++ [⟨2, .len []⟩]

theorem length_floodOctets (n : Nat) : (floodOctets n).length = 2 * n + 2 := by
  induction n with
  | zero => rfl
  | succ n ih =>
    unfold floodOctets at ih ⊢
    rw [List.replicate_succ, List.flatten_cons, List.append_assoc, List.length_append, ih,
      show ([0x0A, 0x00] : Bytes).length = 2 from rfl]
    omega

theorem isRecord_empty {b : UInt8} {field : Nat} (hf : ValidField field)
    (hb : b.toNat = 8 * field + 2) (hlt : b.toNat < 128) :
    IsRecord [b, 0x00] ⟨field, .len []⟩ := by
  have hzero : Varint.IsVarint [0x00] 0 :=
    ⟨(by decide : (0x00 : UInt8).toNat < 128), by decide, rfl, by decide⟩
  have htag : Varint.IsVarint [b] (8 * field + 2) := by
    refine ⟨hlt, by simp, ?_, by omega⟩
    show b.toNat % 128 + 128 * 0 = 8 * field + 2
    omega
  have hvalue : IsValue 2 ([0x00] ++ []) (.len []) := .len hzero
  exact .mk htag hf hvalue

theorem records_flood (n : Nat) : Records (floodOctets n) (floodRecords n) := by
  induction n with
  | zero => exact Records.single (isRecord_empty (by decide) (by decide) (by decide))
  | succ n ih =>
    show Records ([0x0A, 0x00] ++ floodOctets n) (⟨1, .len []⟩ :: floodRecords n)
    exact .cons (isRecord_empty (by decide) (by decide) (by decide)) ih

theorem bodies_flood (n : Nat) :
    (bodies 1 (floodRecords n)).length = n ∧ (bodies 2 (floodRecords n)).length = 1 := by
  induction n with
  | zero => exact ⟨rfl, rfl⟩
  | succ n ih =>
    obtain ⟨h1, h2⟩ := ih
    have hcons : floodRecords (n + 1) = ⟨1, .len []⟩ :: floodRecords n := rfl
    rw [hcons, bodies_cons_self, bodies_cons_of_ne (show 1 ≠ 2 by decide), List.length_cons, h1]
    exact ⟨rfl, h2⟩

theorem not_payloadsFit_flood {n : Nat} (h : 2 ^ 32 ≤ n) :
    ¬ PayloadsFit (floodOctets n) .signatureStrict := by
  intro hfits
  obtain ⟨h1, h2⟩ := bodies_flood n
  have := hfits (floodOctets n) [] (floodRecords n) (List.append_nil _).symm (records_flood n)
    (Nat.le_of_eq h2)
  omega

def usize64 : Target where
  bits := 64
  sixteen_le := by decide

/-- Eight gibibytes of payload records. -/
def flood : WireSlice usize64 where
  octets := floodOctets (2 ^ 32)
  length_lt := by
    rw [length_floodOctets]
    decide

/-- The plain scan accepts the artifact, and the counter overflows on the way. -/
theorem flood_overflows_payload_count :
    (∃ p c, Pb.decomposeRawOuter flood.octets .signatureStrict = .ok p c) ∧
      decomposeRawOuter usize64 flood .signatureStrict = .fault .payloadCount ∧
      ¬ Faultless usize64 flood .signatureStrict := by
  have hfault : decomposeRawOuter usize64 flood .signatureStrict = .fault .payloadCount :=
    fault_of_not_fits (not_payloadsFit_flood (Nat.le_refl _))
  refine ⟨?_, hfault, fun h => h.no_fault .payloadCount hfault⟩
  exact ⟨_, _, decomposeRawOuter_eq_ok_iff.mpr
    ⟨floodRecords (2 ^ 32), records_flood _, (bodies_flood _).2, rfl, rfl⟩⟩

end Checked
end Pb
end Core
end YamlSigil
