/-
The readers of the outer scan with every machine operation spelled out.

Each index, slice, shift, cursor addition and counter increment of the source is here an
operation that may fault, and the width of `usize` is the target's.  On a slice the target
can address the readers never fault and read what the plain ones read.  A step of the scan
faults in one way only: at one payload record more than the counter has room for.
-/
import YamlSigil.Control.Fault
import YamlSigil.Core.Pb.OuterGrammar

namespace YamlSigil
namespace Core
namespace Pb
namespace Checked

open Format Control

/-- What can go wrong in the scan, by the variable or the operation. -/
inductive ScanFault where
  | endless
  | bounds
  | shift
  | cursor
  | payloadCount
  | signatureCount
deriving Repr, DecidableEq

abbrev Scan (α : Type) := Outcome ScanFault α

/-- The width of `usize`. -/
structure Target where
  bits : Nat
  sixteen_le : 16 ≤ bits

/-- A byte slice spans at most `isize::MAX` octets. -/
structure WireSlice (T : Target) where
  octets : Bytes
  length_lt : octets.length < 2 ^ (T.bits - 1)

/-! ## Readers -/

/-- The variables of the loop in `read_varint`. -/
structure VarintState where
  index : Nat
  result : UInt64 := 0
  shift : Nat := 0

def varintPass (T : Target) (bytes : Bytes) (s : VarintState) :
    Scan (Pass VarintState (UInt64 × Nat)) :=
  if s.index < bytes.length then do
    let byte ← Outcome.get .bounds bytes s.index
    let index ← Outcome.add .cursor T.bits s.index 1
    if s.shift = 63 then
      if byte > 1 then .refused
      else do
        let top ← Outcome.shiftLeft .shift byte.toUInt64 63
        .value (.leave (s.result ||| top, index))
    else do
      let group ← Outcome.shiftLeft .shift (byte &&& 0x7F).toUInt64 s.shift
      let result := s.result ||| group
      if byte &&& 0x80 = 0 then .value (.leave (result, index))
      else do
        let shift ← Outcome.add .shift 32 s.shift 7
        .value (.again ⟨index, result, shift⟩)
  else .refused

def readVarint (T : Target) (bytes : Bytes) (index : Nat) : Scan (UInt64 × Nat) :=
  Outcome.loop .endless (varintPass T bytes) (bytes.length + 1) { index := index }

def readTag (T : Target) (bytes : Bytes) (index : Nat) : Scan (UInt32 × UInt32 × Nat) := do
  let (tag, next) ← readVarint T bytes index
  let field := tag >>> 3
  if 1 ≤ field ∧ field ≤ maxProtobufFieldNumber then
    .value (field.toUInt32, (tag &&& 7).toUInt32, next)
  else .refused

def readLength (T : Target) (bytes : Bytes) (index : Nat) : Scan (Nat × Nat) := do
  let (length, next) ← readVarint T bytes index
  -- `usize::try_from`
  if length.toNat < 2 ^ T.bits then .value (length.toNat, next) else .refused

def skipField (T : Target) (wireType : UInt32) (bytes : Bytes) (index : Nat) : Scan Nat :=
  match wireType with
  | 0 => do
    let (_, next) ← readVarint T bytes index
    .value next
  | 1 => do
    let stop ← Outcome.add .cursor T.bits index 8
    if stop ≤ bytes.length then .value stop else .refused
  | 2 => do
    let (length, next) ← readLength T bytes index
    let stop ← Outcome.checkedAdd T.bits next length
    if stop ≤ bytes.length then .value stop else .refused
  | 5 => do
    let stop ← Outcome.add .cursor T.bits index 4
    if stop ≤ bytes.length then .value stop else .refused
  | _ => .refused

def storeField (mode : OuterConformance) (s : OuterState) (field : UInt32) (value : Bytes) :
    Scan OuterState :=
  if field = 1 then do
    let payloadCount ← Outcome.increment .payloadCount s.payloadCount
    if mode = .strict ∧ payloadCount > 1 then .refused
    else .value { s with payloadCount := payloadCount, payload := some value }
  else if field = 2 then do
    let signatureCount ← Outcome.increment .signatureCount s.signatureCount
    if signatureCount > 1 then .refused
    else .value { s with signatureCount := signatureCount, signatureCarrier := some value }
  else if mode = .strict then .refused
  else .value s

/-- One iteration of the scan. -/
def outerStep (T : Target) (wire : Bytes) (mode : OuterConformance) (s : OuterState) :
    Scan OuterState := do
  let (field, wireType, next) ← readTag T wire s.index
  if wireType ≠ 2 then
    if mode = .strict then .refused
    else do
      let next ← skipField T wireType wire next
      .value { s with index := next }
  else do
    let (length, next) ← readLength T wire next
    let stop ← Outcome.checkedAdd T.bits next length
    if stop > wire.length then .refused
    else do
      -- the end of the slice and the cursor behind it are two additions
      let stop ← Outcome.add .cursor T.bits next length
      let value ← Outcome.slice .bounds wire next stop
      let index ← Outcome.add .cursor T.bits next length
      storeField mode { s with index := index } field value

/-- A pass of the scan.  A refusal is the malformed return. -/
def outerPass (T : Target) (wire : Bytes) (mode : OuterConformance) (s : OuterState) :
    Scan (Pass OuterState RawOuterDecomposeOutcome) :=
  if s.index < wire.length then
    Outcome.recover (.leave .malformed) do
      let s ← outerStep T wire mode s
      .value (.again s)
  else .value (.leave s.finish)

def decomposeRawOuter (T : Target) (wire : WireSlice T) (mode : OuterConformance) :
    Scan RawOuterDecomposeOutcome :=
  Outcome.loop .endless (outerPass T wire.octets mode) (wire.octets.length + 1) {}

/-! ## The readers do not fault -/

section
variable {T : Target} {bytes : Bytes}

theorem Target.add_lt (T : Target) {n k : Nat} (h : n < 2 ^ (T.bits - 1)) (hk : k ≤ 2 ^ 15) :
    n + k < 2 ^ T.bits := by
  have hbits := T.sixteen_le
  have htwice : 2 ^ T.bits = 2 ^ (T.bits - 1) * 2 := by
    rw [← Nat.pow_succ, show (T.bits - 1).succ = T.bits by omega]
  have hhalf : 2 ^ 15 ≤ 2 ^ (T.bits - 1) := Nat.pow_le_pow_right (by omega) (by omega)
  omega

/-- The shifts that the loop gets to. -/
def VarintState.Aligned (s : VarintState) : Prop := ∃ k, k ≤ 9 ∧ s.shift = 7 * k

theorem varintPass_of_lt {s : VarintState} (hb : bytes.length < 2 ^ (T.bits - 1))
    (hs : s.Aligned) (h : s.index < bytes.length) :
    varintPass T bytes s =
      if s.shift = 63 then
        if bytes[s.index] > 1 then .refused
        else .value (.leave (s.result ||| (bytes[s.index].toUInt64 <<< 63), s.index + 1))
      else if bytes[s.index] &&& 0x80 = 0 then
        .value (.leave (s.result ||| ((bytes[s.index] &&& 0x7F).toUInt64 <<< UInt64.ofNat s.shift),
          s.index + 1))
      else
        .value (.again ⟨s.index + 1,
          s.result ||| ((bytes[s.index] &&& 0x7F).toUInt64 <<< UInt64.ofNat s.shift),
          s.shift + 7⟩) := by
  obtain ⟨k, hk, hshift⟩ := hs
  have hindex : s.index + 1 < 2 ^ T.bits := T.add_lt (by omega) (by omega)
  rw [varintPass, if_pos h, Outcome.get_of_lt _ h, Outcome.value_bind,
    Outcome.add_of_lt _ hindex, Outcome.value_bind]
  by_cases h63 : s.shift = 63
  · rw [if_pos h63, if_pos h63, Outcome.shiftLeft_of_lt _ _ (by omega), Outcome.value_bind]
    rfl
  · rw [if_neg h63, if_neg h63, Outcome.shiftLeft_of_lt _ _ (by omega), Outcome.value_bind,
      Outcome.add_of_lt _ (by omega)]
    rfl

theorem varintPass_of_not_lt {s : VarintState} (h : ¬ s.index < bytes.length) :
    varintPass T bytes s = .refused := by
  rw [varintPass, if_neg h]

theorem varintPass_again {s s' : VarintState} (hb : bytes.length < 2 ^ (T.bits - 1))
    (hs : s.Aligned) (h : Outcome.Steps (varintPass T bytes) s s') :
    s'.Aligned ∧ bytes.length - s'.index < bytes.length - s.index := by
  unfold Outcome.Steps at h
  by_cases hlt : s.index < bytes.length
  · rw [varintPass_of_lt hb hs hlt] at h
    obtain ⟨k, hk, hshift⟩ := hs
    by_cases h63 : s.shift = 63
    · rw [if_pos h63] at h
      split at h <;> cases h
    · rw [if_neg h63] at h
      split at h
      · cases h
      · cases h
        refine ⟨⟨k + 1, by omega, ?_⟩, ?_⟩
        · show s.shift + 7 = 7 * (k + 1)
          omega
        · show bytes.length - (s.index + 1) < bytes.length - s.index
          omega
  · rw [varintPass_of_not_lt hlt] at h
    cases h

theorem readVarint_eq (hb : bytes.length < 2 ^ (T.bits - 1)) (index : Nat) :
    readVarint T bytes index = .ofOption (Pb.readVarint bytes index) := by
  let rest : VarintState → Scan (UInt64 × Nat) := fun s =>
    .ofOption (readVarintFrom bytes s.index s.result s.shift)
  have hunfolds : ∀ s : VarintState, s.Aligned →
      rest s = varintPass T bytes s >>= Outcome.next rest := by
    intro s hs
    show Outcome.ofOption (readVarintFrom bytes s.index s.result s.shift) = _
    by_cases hlt : s.index < bytes.length
    · rw [readVarintFrom, dif_pos hlt, varintPass_of_lt hb hs hlt]
      by_cases h63 : s.shift = 63
      · simp only [h63, if_true]
        split <;> rfl
      · simp only [h63, if_false]
        split <;> rfl
    · rw [readVarintFrom, dif_neg hlt, varintPass_of_not_lt hlt]
      rfl
  have hstart : VarintState.Aligned { index := index } := ⟨0, by omega, rfl⟩
  have hpasses : bytes.length - index < bytes.length + 1 := by omega
  exact Outcome.loop_eq (f := rest) (I := VarintState.Aligned)
    .endless hunfolds (fun s s' hs h => varintPass_again hb hs h) hstart hpasses

theorem readTag_eq (hb : bytes.length < 2 ^ (T.bits - 1)) (index : Nat) :
    readTag T bytes index = .ofOption (Pb.readTag bytes index) := by
  unfold readTag Pb.readTag
  rw [readVarint_eq hb, Option.bind_eq_bind, Outcome.ofOption_bind]
  cases Pb.readVarint bytes index with
  | none => rfl
  | some p =>
    show (if _ then _ else _) = Outcome.ofOption (if _ then _ else _)
    split <;> rfl

/-- A length that `usize` cannot hold is refused. -/
theorem readLength_eq (hb : bytes.length < 2 ^ (T.bits - 1)) (index : Nat) :
    readLength T bytes index = .ofOption ((Pb.readLength bytes index).filter fun p =>
      p.1 < 2 ^ T.bits) := by
  unfold readLength Pb.readLength
  rw [readVarint_eq hb]
  cases Pb.readVarint bytes index with
  | none => rfl
  | some p =>
    show (if p.1.toNat < 2 ^ T.bits then Outcome.value (p.1.toNat, p.2) else .refused) =
      Outcome.ofOption (Option.filter (fun p => p.1 < 2 ^ T.bits) (some (p.1.toNat, p.2)))
    by_cases h : p.1.toNat < 2 ^ T.bits
    · rw [if_pos h, Option.filter_some_pos (by simpa using h)]
      rfl
    · rw [if_neg h, Option.filter_some_neg (by simpa using h)]
      rfl

/-- What goes on only with an end inside the input reads the plain length. -/
theorem readLength_bind {α : Type} (hb : bytes.length < 2 ^ (T.bits - 1)) (index : Nat)
    {f : Nat → Nat → Nat → Scan α}
    (hf : ∀ length next stop, bytes.length < stop → f length next stop = .refused) :
    (readLength T bytes index >>= fun p =>
      Outcome.checkedAdd T.bits p.2 p.1 >>= f p.1 p.2) =
      (.ofOption (Pb.readLength bytes index) >>= fun p => f p.1 p.2 (p.2 + p.1)) := by
  have hlen : bytes.length < 2 ^ T.bits := T.add_lt hb (Nat.zero_le _)
  rw [readLength_eq hb]
  cases Pb.readLength bytes index with
  | none => rfl
  | some p =>
    obtain ⟨length, next⟩ := p
    by_cases hfits : next + length < 2 ^ T.bits
    · have hlength : length < 2 ^ T.bits := by omega
      rw [Option.filter_some_pos (by simpa using hlength), Outcome.ofOption_some,
        Outcome.value_bind, Outcome.value_bind]
      show Outcome.checkedAdd T.bits next length >>= f length next = _
      rw [Outcome.checkedAdd_of_lt hfits]
      rfl
    · have hrefused : f length next (next + length) = .refused :=
        hf length next (next + length) (by omega)
      show _ = f length next (next + length)
      rw [hrefused]
      by_cases hlength : length < 2 ^ T.bits
      · rw [Option.filter_some_pos (by simpa using hlength), Outcome.ofOption_some,
          Outcome.value_bind]
        show Outcome.checkedAdd T.bits next length >>= f length next = _
        rw [Outcome.checkedAdd, if_neg hfits, Outcome.refused_bind]
      · rw [Option.filter_some_neg (by simpa using hlength), Outcome.ofOption_none,
          Outcome.refused_bind]

/-- A value of fixed width. -/
theorem add_fixed {index width : Nat} (hb : bytes.length < 2 ^ (T.bits - 1))
    (hi : index ≤ bytes.length) (hw : width ≤ 2 ^ 15) :
    (Outcome.add .cursor T.bits index width >>= fun stop =>
      if stop ≤ bytes.length then .value stop else .refused : Scan Nat) =
      .ofOption (if index + width ≤ bytes.length then some (index + width) else none) := by
  rw [Outcome.add_of_lt _ (T.add_lt (by omega) hw), Outcome.value_bind]
  split <;> rfl

theorem skipField_eq {index : Nat} (hb : bytes.length < 2 ^ (T.bits - 1))
    (hi : index ≤ bytes.length) (wireType : UInt32) :
    skipField T wireType bytes index = .ofOption (Pb.skipField wireType bytes index) := by
  unfold skipField
  split
  · show readVarint T bytes index >>= _ = Outcome.ofOption ((Pb.readVarint bytes index).map Prod.snd)
    rw [readVarint_eq hb]
    cases Pb.readVarint bytes index with
    | none => rfl
    | some p => rfl
  · exact add_fixed hb hi (by omega)
  · have hbody := readLength_bind (T := T) hb index (f := fun _ _ stop =>
      if stop ≤ bytes.length then .value stop else .refused) fun _ _ stop hstop =>
        if_neg (by omega)
    refine Eq.trans hbody ?_
    show _ = Outcome.ofOption ((Pb.readLength bytes index).bind fun p =>
      if p.2 + p.1 ≤ bytes.length then some (p.2 + p.1) else none)
    rw [Outcome.ofOption_bind]
    cases Pb.readLength bytes index with
    | none => rfl
    | some p =>
      show (if _ then _ else _) = Outcome.ofOption (if _ then _ else _)
      split <;> rfl
  · exact add_fixed hb hi (by omega)
  · next h0 h1 h2 h5 =>
    unfold Pb.skipField
    split
    · exact absurd rfl h0
    · exact absurd rfl h1
    · exact absurd rfl h2
    · exact absurd rfl h5
    · rfl

end

/-! ## A step faults at the payload counter only -/

/-- A payload record at the cursor can still be counted. -/
def Room (wire : Bytes) (s : OuterState) : Prop :=
  ∀ e t b, wire.drop s.index = e ++ t → Wire.IsRecord e ⟨1, .len b⟩ →
    s.payloadCount.toNat + 1 < 2 ^ 32

section
variable {T : Target} {wire : Bytes} {mode : OuterConformance} {s : OuterState}

theorem storeField_eq {field : UInt32} {value : Bytes} (h : Counting mode s)
    (hroom : field = 1 → s.payloadCount.toNat + 1 < 2 ^ 32) :
    storeField mode s field value = .ofOption (Pb.storeField mode s field value) := by
  unfold storeField Pb.storeField
  by_cases h1 : field = 1
  · rw [if_pos h1, if_pos h1, Outcome.increment_of_lt _ (hroom h1), Outcome.value_bind]
    show (if _ then _ else _) = Outcome.ofOption (if _ then _ else _)
    split <;> rfl
  · rw [if_neg h1, if_neg h1]
    by_cases h2 : field = 2
    · have hcount := h.signature_le
      rw [if_pos h2, if_pos h2, Outcome.increment_of_lt _ (by omega), Outcome.value_bind]
      show (if _ then _ else _) = Outcome.ofOption (if _ then _ else _)
      split <;> rfl
    · rw [if_neg h2, if_neg h2]
      split <;> rfl

theorem storeField_full {value : Bytes} (hfull : ¬ s.payloadCount.toNat + 1 < 2 ^ 32) :
    storeField mode s 1 value = .fault .payloadCount := by
  rw [storeField, if_pos rfl, Outcome.increment_of_not_lt _ hfull]
  rfl

/-- Behind the tag of a length-delimited field. -/
theorem outerStep_len {field : UInt32} {next : Nat} (hb : wire.length < 2 ^ (T.bits - 1))
    (htag : Pb.readTag wire s.index = some (field, 2, next)) :
    outerStep T wire mode s = (.ofOption (Pb.readLength wire next) >>= fun p =>
      if p.2 + p.1 > wire.length then .refused
      else storeField mode (s.seek (p.2 + p.1)) field (Core.slice wire ⟨p.2, p.2 + p.1⟩)) := by
  have hlen : wire.length < 2 ^ T.bits := T.add_lt hb (Nat.zero_le _)
  rw [outerStep, readTag_eq hb, htag]
  have hbody := readLength_bind (T := T) hb next (f := fun length next stop =>
    if stop > wire.length then .refused
    else do
      let stop ← Outcome.add .cursor T.bits next length
      let value ← Outcome.slice .bounds wire next stop
      let index ← Outcome.add .cursor T.bits next length
      storeField mode { s with index := index } field value) fun _ _ _ hstop => if_pos hstop
  refine Eq.trans hbody ?_
  cases Pb.readLength wire next with
  | none => rfl
  | some p =>
    rw [Outcome.ofOption_some, Outcome.value_bind, Outcome.value_bind]
    by_cases hle : p.2 + p.1 > wire.length
    · rw [if_pos hle, if_pos hle]
    · rw [if_neg hle, if_neg hle, Outcome.add_of_lt _ (by omega), Outcome.value_bind,
        Outcome.slice_of_le _ (by omega) (by omega)]
      rfl

theorem outerStep_eq (hb : wire.length < 2 ^ (T.bits - 1)) (h : Counting mode s)
    (hroom : Room wire s) :
    outerStep T wire mode s = .ofOption (Pb.outerStep wire mode s) := by
  cases htag : Pb.readTag wire s.index with
  | none =>
    rw [outerStep, readTag_eq hb, Pb.outerStep, htag]
    rfl
  | some p =>
    obtain ⟨field, wireType, next⟩ := p
    obtain ⟨e, t, hsplit, hv, hwt, hf, hnext⟩ := readTag_eq_some_iff.mp htag
    have hnextle : next ≤ wire.length := by
      rw [hnext]
      exact add_le_of_drop hsplit hv.length_pos
    by_cases h2 : wireType = 2
    · subst h2
      rw [outerStep_len hb htag, outerStep_of_len htag, Outcome.ofOption_bind]
      cases hlen : Pb.readLength wire next with
      | none => rfl
      | some p =>
        rw [Outcome.ofOption_some, Outcome.value_bind, Outcome.value_bind]
        by_cases hle : p.2 + p.1 > wire.length
        · rw [if_pos hle, if_pos hle]
          rfl
        · rw [if_neg hle, if_neg hle]
          refine storeField_eq ⟨h.signature_le, h.payload_le⟩ fun hfield => ?_
          -- the tag and the length are those of a payload record
          obtain ⟨l, b, u, hl, hvlen, -⟩ := readLength_body_iff.mp ⟨hlen, Nat.not_lt.mp hle⟩
          subst hfield
          rw [hnext, drop_add hsplit] at hl
          refine hroom (e ++ (l ++ b)) u b ?_ (.mk hv hf (.len hvlen))
          rw [hsplit, hl, List.append_assoc, List.append_assoc]
    · rw [outerStep, readTag_eq hb, htag, outerStep_of_not_len htag h2, Outcome.ofOption_some,
        Outcome.value_bind]
      show (if wireType ≠ 2 then _ else _) = _
      rw [if_pos h2]
      by_cases hmode : mode = .strict
      · rw [if_pos hmode, if_pos hmode]
        rfl
      · rw [if_neg hmode, if_neg hmode, skipField_eq hb hnextle]
        cases Pb.skipField wireType wire next with
        | none => rfl
        | some n => rfl

theorem outerStep_full {e t b : Bytes} (hb : wire.length < 2 ^ (T.bits - 1))
    (hsplit : wire.drop s.index = e ++ t) (hr : Wire.IsRecord e ⟨1, .len b⟩)
    (hfull : ¬ s.payloadCount.toNat + 1 < 2 ^ 32) :
    outerStep T wire mode s = .fault .payloadCount := by
  cases hr with
  | @mk tag body wt field v htag hf hvalue =>
    cases hvalue with
    | @len l b hvlen =>
      rw [List.append_assoc] at hsplit
      have hread : Pb.readTag wire s.index = some (1, 2, s.index + tag.length) :=
        readTag_eq_some_iff.mpr ⟨tag, (l ++ b) ++ t, hsplit, htag, by decide, hf, rfl⟩
      have hbody := drop_add hsplit
      rw [List.append_assoc] at hbody
      obtain ⟨hlength, hle⟩ := readLength_body_iff.mpr ⟨l, b, t, hbody, hvlen, rfl, rfl⟩
      rw [outerStep_len hb hread, hlength, Outcome.ofOption_some, Outcome.value_bind,
        if_neg (Nat.not_lt.mpr hle)]
      exact storeField_full hfull

end

end Checked
end Pb
end Core
end YamlSigil
