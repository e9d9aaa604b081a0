/-
The raw scanner of the protobuf outer envelope.

The scanner moves a cursor over the wire and keeps the values of fields 1 and 2.
`readVarint`, `readTag`, `readLength` and `skipField` are the source's readers.
Each is shown to agree with the record reader of the wire format on what is left
behind the cursor, so one step of the scan reads one record and the whole scan
is a fold over the record sequence (`decomposeRawOuter_eq`).
-/
import YamlSigil.Core.Basic
import YamlSigil.Format.Wire

namespace YamlSigil
namespace Core
namespace Pb

open Format

/-! ## Readers -/

def readVarintFrom (bytes : Bytes) (index : Nat) (result : UInt64) (shift : Nat) :
    Option (UInt64 × Nat) :=
  if h : index < bytes.length then
    let byte := bytes[index]
    if shift = 63 then
      -- the tenth octet has room for one bit
      if byte > 1 then none
      else some (result ||| (byte.toUInt64 <<< 63), index + 1)
    else
      let result := result ||| ((byte &&& 0x7F).toUInt64 <<< UInt64.ofNat shift)
      if byte &&& 0x80 = 0 then some (result, index + 1)
      else readVarintFrom bytes (index + 1) result (shift + 7)
  else none
termination_by bytes.length - index

def readVarint (bytes : Bytes) (index : Nat) : Option (UInt64 × Nat) :=
  readVarintFrom bytes index 0 0

def maxProtobufFieldNumber : UInt64 := ((1 : UInt64) <<< 29) - 1

/-- Field number, wire type and the index behind the tag. -/
def readTag (bytes : Bytes) (index : Nat) : Option (UInt32 × UInt32 × Nat) := do
  let (tag, next) ← readVarint bytes index
  let field := tag >>> 3
  if 1 ≤ field ∧ field ≤ maxProtobufFieldNumber then
    some (field.toUInt32, (tag &&& 7).toUInt32, next)
  else none

/-- A 64-bit length always fits `usize`. -/
def readLength (bytes : Bytes) (index : Nat) : Option (Nat × Nat) := do
  let (length, next) ← readVarint bytes index
  some (length.toNat, next)

/-- An end index past `usize` is past the input, so the checked addition and the
comparison are one test. -/
def skipField (wireType : UInt32) (bytes : Bytes) (index : Nat) : Option Nat :=
  match wireType with
  | 0 => (readVarint bytes index).map Prod.snd
  | 1 => if index + 8 ≤ bytes.length then some (index + 8) else none
  | 2 => do
    let (length, next) ← readLength bytes index
    let stop := next + length
    if stop ≤ bytes.length then some stop else none
  | 5 => if index + 4 ≤ bytes.length then some (index + 4) else none
  | _ => none

inductive OuterConformance where
  | strict
  | signatureStrict
deriving Repr, DecidableEq

inductive RawOuterDecomposeOutcome where
  | malformed
  | ok (payload signatureCarrier : Bytes)
deriving Repr, DecidableEq

/-- The scanner's variables.  The record counters have 32 bits and wrap. -/
structure OuterState where
  payload : Option Bytes := none
  payloadCount : UInt32 := 0
  signatureCarrier : Option Bytes := none
  signatureCount : UInt32 := 0
  index : Nat := 0
deriving Repr, DecidableEq

/-- What the `match` on the field number does with a length-delimited value;
`none` is the malformed return. -/
def storeField (mode : OuterConformance) (s : OuterState) (field : UInt32) (value : Bytes) :
    Option OuterState :=
  if field = 1 then
    let s := { s with payloadCount := s.payloadCount + 1 }
    if mode = .strict ∧ s.payloadCount > 1 then none else some { s with payload := some value }
  else if field = 2 then
    let s := { s with signatureCount := s.signatureCount + 1 }
    if s.signatureCount > 1 then none else some { s with signatureCarrier := some value }
  else if mode = .strict then none
  else some s

/-- One iteration of the scan. -/
def outerStep (wire : Bytes) (mode : OuterConformance) (s : OuterState) : Option OuterState := do
  let (field, wireType, next) ← readTag wire s.index
  if wireType ≠ 2 then
    if mode = .strict then none
    else
      let next ← skipField wireType wire next
      some { s with index := next }
  else
    let (length, next) ← readLength wire next
    if next + length > wire.length then none
    else storeField mode { s with index := next + length } field (slice wire ⟨next, next + length⟩)

def OuterState.finish (s : OuterState) : RawOuterDecomposeOutcome :=
  match s.signatureCarrier with
  | some signatureCarrier => .ok (s.payload.getD []) signatureCarrier
  | none => .malformed

/-! ## Varints -/

theorem and_continuation_eq_zero_iff (b : UInt8) : b &&& 0x80 = 0 ↔ b.toNat < 128 := by
  have hall : ∀ n < 256, UInt8.ofNat n &&& 0x80 = 0 ↔ n < 128 := by decide +kernel
  have := hall b.toNat b.toNat_lt
  rwa [UInt8.ofNat_toNat] at this

theorem and_low_toNat (b : UInt8) : (b &&& 0x7F).toNat = b.toNat % 128 := by
  rw [UInt8.toNat_and]
  exact Nat.and_two_pow_sub_one_eq_mod b.toNat 7

/-- Bits above `shift` are added to a number below `2 ^ shift`. -/
theorem or_shiftLeft_toNat {result : UInt64} {b : UInt8} {shift : Nat} (hs : shift < 64)
    (hr : result.toNat < 2 ^ shift) (hb : 2 ^ shift * b.toNat < 2 ^ 64) :
    (result ||| (b.toUInt64 <<< UInt64.ofNat shift)).toNat =
      result.toNat + 2 ^ shift * b.toNat := by
  have hshift : (b.toUInt64 <<< UInt64.ofNat shift).toNat = 2 ^ shift * b.toNat := by
    rw [UInt64.toNat_shiftLeft, UInt8.toNat_toUInt64, UInt64.toNat_ofNat']
    have : shift % 2 ^ 64 % 64 = shift := by omega
    rw [this, Nat.shiftLeft_eq, Nat.mul_comm]
    exact Nat.mod_eq_of_lt hb
  rw [UInt64.toNat_or, hshift, Nat.or_comm, ← Nat.two_pow_add_eq_or_of_lt hr, Nat.add_comm]

/-- Behind `k` octets of value `r`, the octets `rest` complete the number `v` with
`n` octets more. -/
def Completes (k r : Nat) (rest : Bytes) (v n : Nat) : Prop :=
  ∃ h t, rest = h ++ t ∧ Varint.Terminated h ∧ h.length + k ≤ 10 ∧
    r + 2 ^ (7 * k) * Varint.value h = v ∧ n = h.length

theorem completes_nil {k r v n : Nat} : ¬ Completes k r [] v n := by
  intro h
  rcases h with ⟨h, t, hsplit, hterm, _⟩
  exact hterm.ne_nil (List.append_eq_nil_iff.mp hsplit.symm).1

theorem completes_last {k r v n : Nat} {b : UInt8} {rest : Bytes} (hb : b.toNat < 128) :
    Completes k r (b :: rest) v n ↔ k ≤ 9 ∧ v = r + 2 ^ (7 * k) * b.toNat ∧ n = 1 := by
  have hvalue : Varint.value [b] = b.toNat := by
    show b.toNat % 128 + 128 * 0 = b.toNat
    omega
  constructor
  · intro h
    rcases h with ⟨h, t, hsplit, hterm, hlen, hv, hn⟩
    obtain ⟨rfl, -⟩ := Varint.Terminated.append_inj hterm (show Varint.Terminated [b] from hb)
      (hsplit.symm : h ++ t = [b] ++ rest)
    rw [hvalue] at hv
    rw [List.length_singleton] at hlen hn
    exact ⟨by omega, hv.symm, hn⟩
  · intro h
    rcases h with ⟨hk, hv, hn⟩
    refine ⟨[b], rest, rfl, hb, ?_, by rw [hvalue, hv], hn⟩
    rw [List.length_singleton]
    omega

theorem completes_more {k r v n : Nat} {b : UInt8} {rest : Bytes} (hb : 128 ≤ b.toNat) :
    Completes k r (b :: rest) v n ↔
      ∃ m, n = m + 1 ∧ Completes (k + 1) (r + 2 ^ (7 * k) * (b.toNat % 128)) rest v m := by
  have hpow : 2 ^ (7 * (k + 1)) = 2 ^ (7 * k) * 128 := by
    rw [show 7 * (k + 1) = 7 * k + 7 by omega, Nat.pow_add]
  constructor
  · intro h
    rcases h with ⟨h, t, hsplit, hterm, hlen, hv, hn⟩
    cases h with
    | nil => exact absurd rfl hterm.ne_nil
    | cons c h =>
      rw [List.cons_append, List.cons.injEq] at hsplit
      obtain ⟨rfl, hrest⟩ := hsplit
      have hne : h ≠ [] := by
        intro hnil
        subst hnil
        exact absurd (show b.toNat < 128 from hterm) (by omega)
      rw [List.length_cons] at hlen hn
      have hterm' := ((Varint.terminated_cons hne).mp hterm).2
      refine ⟨h.length, hn, h, t, hrest, hterm', by omega, ?_, rfl⟩
      rw [Varint.value, Nat.mul_add, ← Nat.mul_assoc, ← hpow, ← Nat.add_assoc] at hv
      exact hv
  · intro h
    rcases h with ⟨m, hn, h, t, hrest, hterm, hlen, hv, hm⟩
    refine ⟨b :: h, t, by rw [hrest, List.cons_append], ?_, ?_, ?_, ?_⟩
    · exact (Varint.terminated_cons hterm.ne_nil).mpr ⟨hb, hterm⟩
    · rw [List.length_cons]
      omega
    · rw [Varint.value, Nat.mul_add, ← Nat.mul_assoc, ← hpow, ← Nat.add_assoc]
      exact hv
    · rw [List.length_cons]
      omega

/-- The loop ends at an octet with a clear top bit. -/
theorem ends_iff_completes {index k next : Nat} {b : UInt8} {rest : Bytes} {result total v : UInt64}
    (hk : k ≤ 9) (hb : b.toNat < 128)
    (htotal : total.toNat = result.toNat + 2 ^ (7 * k) * b.toNat) :
    some (total, index + 1) = some (v, next) ↔
      ∃ n, next = index + n ∧ Completes k result.toNat (b :: rest) v.toNat n := by
  rw [Option.some.injEq, Prod.mk.injEq]
  simp only [completes_last hb]
  constructor
  · intro h
    rcases h with ⟨hres, hnext⟩
    subst hres
    exact ⟨1, hnext.symm, hk, htotal, rfl⟩
  · intro h
    rcases h with ⟨n, hnext, _, hvalue, hn⟩
    subst hn
    exact ⟨UInt64.toNat_inj.mp (htotal.trans hvalue.symm), hnext.symm⟩

/-- A large tenth octet ends no number below `2 ^ 64`. -/
theorem not_completes_of_large {r n : Nat} {b : UInt8} {rest : Bytes} {v : UInt64}
    (hb : 1 < b.toNat) : ¬ Completes 9 r (b :: rest) v.toNat n := by
  intro hc
  have hv := v.toNat_lt
  by_cases h128 : b.toNat < 128
  · obtain ⟨-, hvalue, -⟩ := (completes_last h128).mp hc
    omega
  · obtain ⟨_, _, h, t, _, hterm, hlen, _⟩ := (completes_more (by omega)).mp hc
    have := hterm.length_pos
    omega

/-- The loop after `k` octets of value `result`. -/
theorem readVarintFrom_eq_some_iff {bytes : Bytes} {index k next : Nat} {result v : UInt64}
    (hk : k ≤ 9) (hr : result.toNat < 2 ^ (7 * k)) :
    readVarintFrom bytes index result (7 * k) = some (v, next) ↔
      ∃ n, next = index + n ∧ Completes k result.toNat (bytes.drop index) v.toNat n := by
  induction hn : bytes.length - index generalizing index k result with
  | zero =>
    have hle : bytes.length ≤ index := by omega
    rw [readVarintFrom, dif_neg (by omega), List.drop_eq_nil_of_le hle]
    refine ⟨fun h => (by cases h), fun h => ?_⟩
    rcases h with ⟨_, _, h⟩
    exact absurd h completes_nil
  | succ n ih =>
    have hlt : index < bytes.length := by omega
    rw [readVarintFrom, dif_pos hlt, List.drop_eq_getElem_cons hlt]
    generalize bytes[index] = byte
    have hbyte := byte.toNat_lt
    have hv := v.toNat_lt
    show (if 7 * k = 63 then
        (if byte > 1 then none else some (result ||| (byte.toUInt64 <<< 63), index + 1))
      else if byte &&& 0x80 = 0 then
        some (result ||| ((byte &&& 0x7F).toUInt64 <<< UInt64.ofNat (7 * k)), index + 1)
      else _) = _ ↔ _
    by_cases h63 : 7 * k = 63
    · obtain rfl : k = 9 := by omega
      rw [if_pos h63]
      by_cases h1 : byte > 1
      · rw [if_pos h1]
        refine ⟨fun h => (by cases h), fun h => ?_⟩
        rcases h with ⟨m, _, hc⟩
        exact absurd hc (not_completes_of_large (UInt8.lt_iff_toNat_lt.mp h1))
      · have h1n : byte.toNat ≤ 1 := Nat.not_lt.mp fun hlt => h1 (UInt8.lt_iff_toNat_lt.mpr hlt)
        rw [if_neg h1]
        have hor := or_shiftLeft_toNat (b := byte) (by decide : 63 < 64) hr (by omega)
        exact ends_iff_completes hk (by omega) hor
    · rw [if_neg h63]
      have hk8 : k ≤ 8 := by omega
      have hpow : 2 ^ (7 * (k + 1)) = 2 ^ (7 * k) * 128 := by
        rw [show 7 * (k + 1) = 7 * k + 7 by omega, Nat.pow_add]
      have hpow64 : 2 ^ (7 * (k + 1)) ≤ 2 ^ 63 := Nat.pow_le_pow_right (by decide) (by omega)
      have hlow := and_low_toNat byte
      have hmul : 2 ^ (7 * k) * (byte.toNat % 128) ≤ 2 ^ (7 * k) * 127 :=
        Nat.mul_le_mul_left _ (by omega)
      have hor := or_shiftLeft_toNat (b := byte &&& 0x7F) (show 7 * k < 64 by omega) hr
        (by rw [hlow]; omega)
      rw [hlow] at hor
      by_cases hlast : byte &&& 0x80 = 0
      · have h128 := (and_continuation_eq_zero_iff byte).mp hlast
        rw [Nat.mod_eq_of_lt h128] at hor
        rw [if_pos hlast]
        exact ends_iff_completes hk h128 hor
      · have h128 : 128 ≤ byte.toNat := Nat.not_lt.mp fun hlt =>
          hlast ((and_continuation_eq_zero_iff byte).mpr hlt)
        rw [if_neg hlast, show 7 * k + 7 = 7 * (k + 1) by omega,
          ih (by omega) (by rw [hor]; omega) (by omega), hor]
        simp only [completes_more h128]
        constructor
        · intro h
          rcases h with ⟨m, hnext, hc⟩
          exact ⟨m + 1, by omega, m, rfl, hc⟩
        · intro h
          rcases h with ⟨_, hnext, m, hm, hc⟩
          exact ⟨m, by omega, hc⟩

/-- `readVarint` reads what the wire format calls a varint. -/
theorem readVarint_eq_some_iff {bytes : Bytes} {index next : Nat} {v : UInt64} :
    readVarint bytes index = some (v, next) ↔
      ∃ e t, bytes.drop index = e ++ t ∧ Varint.IsVarint e v.toNat ∧ next = index + e.length := by
  unfold readVarint
  rw [show (0 : Nat) = 7 * 0 from rfl, readVarintFrom_eq_some_iff (by decide) (by decide)]
  constructor
  · intro h
    rcases h with ⟨n, hnext, e, t, hsplit, hterm, hlen, hvalue, hn⟩
    have hvalue : Varint.value e = v.toNat := by simpa using hvalue
    exact ⟨e, t, hsplit, ⟨hterm, by omega, hvalue, v.toNat_lt⟩, by rw [hnext, hn]⟩
  · intro h
    rcases h with ⟨e, t, hsplit, hv, hnext⟩
    refine ⟨e.length, hnext, e, t, hsplit, hv.terminated, hv.length_le, ?_, rfl⟩
    simpa using hv.value_eq

/-- It fails when ten octets announce a successor, when the input ends before an
octet that does not, and when the number needs more than 64 bits. -/
theorem readVarint_eq_none_iff {bytes : Bytes} {index : Nat} :
    readVarint bytes index = none ↔
      (∀ b ∈ (bytes.drop index).take 10, 128 ≤ b.toNat) ∨
        ∃ e t, bytes.drop index = e ++ t ∧ Varint.Terminated e ∧ 2 ^ 64 ≤ Varint.value e := by
  rw [Option.eq_none_iff_forall_ne_some]
  cases hsplit : Varint.splitFirst (bytes.drop index) with
  | none =>
    have hall := Varint.splitFirst_eq_none_iff.mp hsplit
    refine ⟨fun _ => .inl fun b hb => hall b (List.mem_of_mem_take hb), fun _ p hp => ?_⟩
    obtain ⟨e, t, hdrop, hv, -⟩ := readVarint_eq_some_iff.mp hp
    rw [hdrop, Varint.splitFirst_append hv.terminated] at hsplit
    cases hsplit
  | some p =>
    obtain ⟨e, t⟩ := p
    obtain ⟨hdrop, hterm⟩ := Varint.splitFirst_eq_some_iff.mp hsplit
    rw [hdrop, hterm.all_take_iff]
    constructor
    · intro hnone
      by_cases hlen : 10 < e.length
      · exact .inl hlen
      · refine .inr ⟨e, t, rfl, hterm, Nat.not_lt.mp fun hlt => ?_⟩
        have hval : (UInt64.ofNat (Varint.value e)).toNat = Varint.value e := by
          rw [UInt64.toNat_ofNat']
          omega
        refine hnone (UInt64.ofNat (Varint.value e), index + e.length)
          (readVarint_eq_some_iff.mpr ⟨e, t, hdrop, ⟨hterm, by omega, hval.symm, ?_⟩, rfl⟩)
        rwa [hval]
    · intro hfail p hp
      obtain ⟨e', t', hdrop', hv, -⟩ := readVarint_eq_some_iff.mp hp
      rw [hdrop] at hdrop'
      obtain ⟨rfl, rfl⟩ := hterm.append_inj hv.terminated hdrop'
      rcases hfail with hlen | ⟨e'', t'', hdrop'', hterm'', hlarge⟩
      · exact absurd hv.length_le (by omega)
      · obtain ⟨rfl, -⟩ := hterm.append_inj hterm'' hdrop''
        have hlt := hv.lt
        rw [← hv.value_eq] at hlt
        omega

/-! ## Tags, lengths and skipped values -/

theorem drop_add {l e t : Bytes} {i : Nat} (h : l.drop i = e ++ t) : l.drop (i + e.length) = t := by
  rw [← List.drop_drop, h, List.drop_left]

theorem add_le_of_drop {l e t : Bytes} {i : Nat} (h : l.drop i = e ++ t) (he : 0 < e.length) :
    i + e.length ≤ l.length := by
  have := congrArg List.length h
  rw [List.length_drop, List.length_append] at this
  omega

theorem readTag_eq_some_iff {bytes : Bytes} {index next : Nat} {field wireType : UInt32} :
    readTag bytes index = some (field, wireType, next) ↔
      ∃ e t, bytes.drop index = e ++ t ∧
        Varint.IsVarint e (8 * field.toNat + wireType.toNat) ∧ wireType.toNat < 8 ∧
        Wire.ValidField field.toNat ∧ next = index + e.length := by
  have hshift : ∀ tag : UInt64, (tag >>> 3).toNat = tag.toNat / 8 := fun tag => by
    rw [UInt64.toNat_shiftRight]
    exact Nat.shiftRight_eq_div_pow tag.toNat 3
  have hlow : ∀ tag : UInt64, (tag &&& 7).toUInt32.toNat = tag.toNat % 8 := fun tag => by
    rw [UInt64.toNat_toUInt32, UInt64.toNat_and]
    have : tag.toNat &&& (7 : UInt64).toNat = tag.toNat % 8 :=
      Nat.and_two_pow_sub_one_eq_mod tag.toNat 3
    omega
  have hvalid : ∀ f : UInt64,
      (1 ≤ f ∧ f ≤ maxProtobufFieldNumber) ↔ Wire.ValidField f.toNat := fun f => by
    rw [UInt64.le_iff_toNat_le, UInt64.le_iff_toNat_le]
    show (1 ≤ f.toNat ∧ f.toNat ≤ 2 ^ 29 - 1) ↔ (1 ≤ f.toNat ∧ f.toNat < 2 ^ 29)
    omega
  have hfield : ∀ tag : UInt64, tag.toNat / 8 < 2 ^ 29 →
      (tag >>> 3).toUInt32.toNat = tag.toNat / 8 := fun tag hlt => by
    rw [UInt64.toNat_toUInt32, hshift]
    omega
  simp only [readTag, Option.bind_eq_bind, Option.bind_eq_some_iff, Option.ite_none_right_eq_some,
    Option.some.injEq, Prod.mk.injEq, hvalid, hshift]
  constructor
  · intro h
    rcases h with ⟨⟨tag, n⟩, hread, hf, hfe, hw, hn⟩
    obtain ⟨e, t, hsplit, hv, hnext⟩ := readVarint_eq_some_iff.mp hread
    subst hfe hw
    rw [hlow, hfield tag hf.2, Nat.div_add_mod]
    exact ⟨e, t, hsplit, hv, Nat.mod_lt _ (by decide), hf, by rw [← hn, ← hnext]⟩
  · intro h
    rcases h with ⟨e, t, hsplit, hv, hwt, hf, hnext⟩
    have htag : (UInt64.ofNat (8 * field.toNat + wireType.toNat)).toNat =
        8 * field.toNat + wireType.toNat := by
      rw [UInt64.toNat_ofNat']
      exact Nat.mod_eq_of_lt hv.lt
    have hdiv : (8 * field.toNat + wireType.toNat) / 8 = field.toNat := by omega
    have hmod : (8 * field.toNat + wireType.toNat) % 8 = wireType.toNat := by omega
    refine ⟨(UInt64.ofNat (8 * field.toNat + wireType.toNat), next),
      readVarint_eq_some_iff.mpr ⟨e, t, hsplit, by rwa [htag], hnext⟩, ?_, ?_, ?_, rfl⟩
    · rwa [htag, hdiv]
    · apply UInt32.toNat_inj.mp
      rw [hfield _ (by rw [htag, hdiv]; exact hf.2), htag, hdiv]
    · apply UInt32.toNat_inj.mp
      rw [hlow, htag, hmod]

theorem readLength_eq_some_iff {bytes : Bytes} {index next length : Nat} :
    readLength bytes index = some (length, next) ↔
      ∃ e t, bytes.drop index = e ++ t ∧ Varint.IsVarint e length ∧ next = index + e.length := by
  simp only [readLength, Option.bind_eq_bind, Option.bind_eq_some_iff, Option.some.injEq,
    Prod.mk.injEq]
  constructor
  · intro h
    rcases h with ⟨⟨v, n⟩, hread, hv, hn⟩
    obtain ⟨e, t, hsplit, hvar, hnext⟩ := readVarint_eq_some_iff.mp hread
    subst hv hn
    exact ⟨e, t, hsplit, hvar, hnext⟩
  · intro h
    rcases h with ⟨e, t, hsplit, hvar, hnext⟩
    have hval : (UInt64.ofNat length).toNat = length := by
      rw [UInt64.toNat_ofNat']
      exact Nat.mod_eq_of_lt hvar.lt
    exact ⟨(UInt64.ofNat length, next),
      readVarint_eq_some_iff.mpr ⟨e, t, hsplit, by rwa [hval], hnext⟩, hval, rfl⟩

theorem drop_split {l : Bytes} {i n : Nat} (h : i + n ≤ l.length) :
    ∃ b t, l.drop i = b ++ t ∧ b.length = n := by
  refine ⟨(l.drop i).take n, (l.drop i).drop n, (List.take_append_drop n _).symm, ?_⟩
  rw [List.length_take, List.length_drop]
  omega

/-- A length with as many octets behind it. -/
theorem readLength_body_iff {bytes : Bytes} {index next length : Nat} :
    (readLength bytes index = some (length, next) ∧ next + length ≤ bytes.length) ↔
      ∃ l b t, bytes.drop index = l ++ (b ++ t) ∧ Varint.IsVarint l b.length ∧
        length = b.length ∧ next = index + l.length := by
  constructor
  · intro h
    rcases h with ⟨hread, hle⟩
    obtain ⟨l, t, hsplit, hv, hnext⟩ := readLength_eq_some_iff.mp hread
    obtain ⟨b, u, hb, hlen⟩ := drop_split hle
    rw [hnext, drop_add hsplit] at hb
    subst hb hlen
    exact ⟨l, b, u, hsplit, hv, rfl, hnext⟩
  · intro h
    rcases h with ⟨l, b, t, hsplit, hv, hlen, hnext⟩
    have hpos := hv.length_pos
    have htotal := congrArg List.length hsplit
    rw [List.length_drop, List.length_append, List.length_append] at htotal
    subst hlen hnext
    exact ⟨readLength_eq_some_iff.mpr ⟨l, b ++ t, hsplit, hv, rfl⟩, by omega⟩

/-- A value of fixed width is there when its octets are. -/
theorem fixed_eq_some_iff {bytes : Bytes} {index width next : Nat} (hw : 0 < width) :
    (if index + width ≤ bytes.length then some (index + width) else none) = some next ↔
      ∃ b t, bytes.drop index = b ++ t ∧ b.length = width ∧ next = index + b.length := by
  rw [Option.ite_none_right_eq_some, Option.some.injEq]
  constructor
  · intro h
    rcases h with ⟨hle, hnext⟩
    obtain ⟨b, t, hsplit, hb⟩ := drop_split hle
    exact ⟨b, t, hsplit, hb, by rw [← hnext, hb]⟩
  · intro h
    rcases h with ⟨b, t, hsplit, hb, hnext⟩
    have hle := add_le_of_drop hsplit (by omega)
    exact ⟨by omega, by omega⟩

/-- A skipped value is a value of the wire format. -/
theorem skipField_eq_some_iff {wireType : UInt32} {bytes : Bytes} {index next : Nat} :
    skipField wireType bytes index = some next ↔
      ∃ e t v, bytes.drop index = e ++ t ∧ Wire.IsValue wireType.toNat e v ∧
        next = index + e.length := by
  constructor
  · intro h
    unfold skipField at h
    split at h
    · obtain ⟨⟨v, n⟩, hread, hn⟩ := Option.map_eq_some_iff.mp h
      obtain ⟨e, t, hsplit, hv, hnext⟩ := readVarint_eq_some_iff.mp hread
      subst hn
      exact ⟨e, t, _, hsplit, .varint hv, hnext⟩
    · obtain ⟨b, t, hsplit, hb, hnext⟩ := (fixed_eq_some_iff (by decide)).mp h
      exact ⟨b, t, _, hsplit, .i64 hb, hnext⟩
    · simp only [Option.bind_eq_bind, Option.bind_eq_some_iff, Option.ite_none_right_eq_some,
        Option.some.injEq] at h
      obtain ⟨⟨length, n⟩, hread, hle, hn⟩ := h
      obtain ⟨l, b, t, hsplit, hv, hlen, hnext⟩ := readLength_body_iff.mp ⟨hread, hle⟩
      refine ⟨l ++ b, t, _, by rw [hsplit, List.append_assoc], .len hv, ?_⟩
      rw [List.length_append]
      omega
    · obtain ⟨b, t, hsplit, hb, hnext⟩ := (fixed_eq_some_iff (by decide)).mp h
      exact ⟨b, t, _, hsplit, .i32 hb, hnext⟩
    · cases h
  · intro h
    rcases h with ⟨e, t, v, hsplit, hvalue, hnext⟩
    generalize hwt : wireType.toNat = wt at hvalue
    have hwire : ∀ n : UInt32, n.toNat = wt → wireType = n := fun n hn =>
      UInt32.toNat_inj.mp (hwt.trans hn.symm)
    subst hnext
    cases hvalue with
    | @varint _ v hv =>
      rw [hwire 0 rfl]
      have hval : (UInt64.ofNat v).toNat = v := by
        rw [UInt64.toNat_ofNat']
        exact Nat.mod_eq_of_lt hv.lt
      have hread : readVarint bytes index = some (UInt64.ofNat v, index + e.length) :=
        readVarint_eq_some_iff.mpr ⟨e, t, hsplit, by rwa [hval], rfl⟩
      show (readVarint bytes index).map Prod.snd = _
      rw [hread]
      rfl
    | i64 hb =>
      rw [hwire 1 rfl]
      exact (fixed_eq_some_iff (by decide)).mpr ⟨e, t, hsplit, hb, rfl⟩
    | @len enc b hv =>
      rw [List.append_assoc] at hsplit
      obtain ⟨hread, hle⟩ := readLength_body_iff.mpr ⟨enc, b, t, hsplit, hv, rfl, rfl⟩
      rw [hwire 2 rfl]
      show ((readLength bytes index).bind fun p =>
        if p.2 + p.1 ≤ bytes.length then some (p.2 + p.1) else none) = _
      rw [hread, Option.bind_some, if_pos hle, List.length_append, Nat.add_assoc]
    | i32 hb =>
      rw [hwire 5 rfl]
      exact (fixed_eq_some_iff (by decide)).mpr ⟨e, t, hsplit, hb, rfl⟩

/-! ## One step reads one record -/

/-- What one record does to the variables other than the cursor. -/
def absorb (mode : OuterConformance) (s : OuterState) (r : Wire.Record) : Option OuterState :=
  match r.value with
  | .len value => storeField mode s (UInt32.ofNat r.field) value
  | .varint _ | .i64 _ | .i32 _ => if mode = .strict then none else some s

def OuterState.seek (s : OuterState) (index : Nat) : OuterState := { s with index := index }

theorem storeField_seek (mode : OuterConformance) (s : OuterState) (index : Nat) (field : UInt32)
    (value : Bytes) : storeField mode (s.seek index) field value =
      (storeField mode s field value).map (·.seek index) := by
  unfold storeField OuterState.seek
  by_cases h1 : field = 1
  · simp only [h1, if_true]
    split <;> rfl
  · by_cases h2 : field = 2
    · rw [if_neg h1, if_neg h1, if_pos h2, if_pos h2]
      simp only
      split <;> rfl
    · rw [if_neg h1, if_neg h1, if_neg h2, if_neg h2]
      split <;> rfl

theorem absorb_of_not_len {r : Wire.Record} (h : ¬ r.IsLen) (mode : OuterConformance)
    (s : OuterState) : absorb mode s r = if mode = .strict then none else some s := by
  obtain ⟨field, value⟩ := r
  cases value with
  | len b => exact absurd ⟨b, rfl⟩ h
  | varint _ | i64 _ | i32 _ => rfl

theorem IsValue.not_len {wt : Nat} {e : Bytes} {v : Wire.Value} (h : Wire.IsValue wt e v)
    (hwt : wt ≠ 2) (field : Nat) : ¬ (Wire.Record.mk field v).IsLen := by
  intro h
  rcases h with ⟨b, hb⟩
  cases h with
  | len _ => exact hwt rfl
  | varint _ | i64 _ | i32 _ => cases hb

theorem slice_of_drop {l b t : Bytes} {i : Nat} (h : l.drop i = b ++ t) :
    slice l ⟨i, i + b.length⟩ = b := by
  unfold slice
  rw [List.drop_take, h, Nat.add_sub_cancel_left, List.take_left]

/-- Behind the tag of a length-delimited field. -/
theorem outerStep_of_len {wire : Bytes} {s : OuterState} {field : UInt32} {next : Nat}
    (htag : readTag wire s.index = some (field, 2, next)) (mode : OuterConformance) :
    outerStep wire mode s = (readLength wire next).bind fun p =>
      if p.2 + p.1 > wire.length then none
      else storeField mode (s.seek (p.2 + p.1)) field (slice wire ⟨p.2, p.2 + p.1⟩) := by
  rw [outerStep, htag]
  rfl

/-- Behind the tag of a field of another wire type. -/
theorem outerStep_of_not_len {wire : Bytes} {s : OuterState} {field wireType : UInt32}
    {next : Nat} (htag : readTag wire s.index = some (field, wireType, next))
    (hwt : wireType ≠ 2) (mode : OuterConformance) :
    outerStep wire mode s =
      if mode = .strict then none else (skipField wireType wire next).map s.seek := by
  rw [outerStep, htag, Option.bind_eq_bind, Option.bind_some]
  simp only [hwt, ne_eq, not_false_eq_true, if_true]
  split
  · rfl
  · cases skipField wireType wire next with
    | none => rfl
    | some n => rfl

theorem outerStep_len_iff {wire : Bytes} {mode : OuterConformance} {s s' : OuterState}
    {field : UInt32} {next : Nat} (htag : readTag wire s.index = some (field, 2, next)) :
    outerStep wire mode s = some s' ↔
      ∃ l b t s₁, wire.drop next = l ++ (b ++ t) ∧ Varint.IsVarint l b.length ∧
        storeField mode s field b = some s₁ ∧ s' = s₁.seek (next + (l ++ b).length) := by
  rw [outerStep_of_len htag, Option.bind_eq_some_iff]
  constructor
  · intro h
    rcases h with ⟨⟨length, n⟩, hread, h⟩
    by_cases hle : n + length > wire.length
    · rw [if_pos hle] at h
      cases h
    · obtain ⟨l, b, t, hsplit, hv, hlen, hn⟩ :=
        readLength_body_iff.mp ⟨hread, Nat.not_lt.mp hle⟩
      have hb := drop_add hsplit
      subst hlen
      rw [← hn] at hb
      rw [if_neg hle, slice_of_drop hb, storeField_seek] at h
      obtain ⟨s₁, hs₁, hs'⟩ := Option.map_eq_some_iff.mp h
      refine ⟨l, b, t, s₁, hsplit, hv, hs₁, ?_⟩
      rw [← hs', hn, List.length_append, Nat.add_assoc]
  · intro h
    rcases h with ⟨l, b, t, s₁, hsplit, hv, hs₁, hs'⟩
    obtain ⟨hread, hle⟩ := readLength_body_iff.mpr ⟨l, b, t, hsplit, hv, rfl, rfl⟩
    refine ⟨_, hread, ?_⟩
    rw [if_neg (Nat.not_lt.mpr hle), slice_of_drop (drop_add hsplit), storeField_seek, hs₁, hs',
      List.length_append, ← Nat.add_assoc]
    rfl

theorem outerStep_skip_iff {wire : Bytes} {mode : OuterConformance} {s s' : OuterState}
    {field wireType : UInt32} {next : Nat}
    (htag : readTag wire s.index = some (field, wireType, next)) (hwt : wireType ≠ 2) :
    outerStep wire mode s = some s' ↔
      mode ≠ .strict ∧ ∃ e t v, wire.drop next = e ++ t ∧ Wire.IsValue wireType.toNat e v ∧
        s' = s.seek (next + e.length) := by
  rw [outerStep_of_not_len htag hwt]
  by_cases hmode : mode = .strict
  · rw [if_pos hmode]
    exact ⟨fun h => (by cases h), fun h => absurd hmode h.1⟩
  · rw [if_neg hmode, Option.map_eq_some_iff]
    constructor
    · intro h
      rcases h with ⟨n, hskip, hs'⟩
      obtain ⟨e, t, v, hsplit, hvalue, hn⟩ := skipField_eq_some_iff.mp hskip
      exact ⟨hmode, e, t, v, hsplit, hvalue, by rw [← hs', hn]⟩
    · intro h
      rcases h with ⟨-, e, t, v, hsplit, hvalue, hs'⟩
      exact ⟨_, skipField_eq_some_iff.mpr ⟨e, t, v, hsplit, hvalue, rfl⟩, hs'.symm⟩

/-- One step reads one record and absorbs it. -/
theorem record_of_outerStep {wire : Bytes} {mode : OuterConformance} {s s' : OuterState}
    (h : outerStep wire mode s = some s') :
    ∃ e t r s₁, wire.drop s.index = e ++ t ∧ Wire.IsRecord e r ∧ absorb mode s r = some s₁ ∧
      s' = s₁.seek (s.index + e.length) := by
  have hstep := h
  rw [outerStep, Option.bind_eq_bind, Option.bind_eq_some_iff] at hstep
  obtain ⟨⟨field, wireType, next⟩, htag, -⟩ := hstep
  obtain ⟨e, t, hsplit, hv, hwt, hf, hnext⟩ := readTag_eq_some_iff.mp htag
  have ht := drop_add hsplit
  rw [← hnext] at ht
  by_cases h2 : wireType = 2
  · subst h2
    obtain ⟨l, b, u, s₁, hl, hvlen, hs₁, hs'⟩ := (outerStep_len_iff htag).mp h
    refine ⟨e ++ (l ++ b), u, ⟨field.toNat, .len b⟩, s₁, ?_, .mk hv hf (.len hvlen), ?_, ?_⟩
    · rw [hsplit, ← ht, hl, List.append_assoc, List.append_assoc]
    · show storeField mode s (UInt32.ofNat field.toNat) b = some s₁
      rwa [UInt32.ofNat_toNat]
    · have hlen : (e ++ (l ++ b)).length = e.length + (l ++ b).length := List.length_append
      rw [hs', hlen, ← Nat.add_assoc, ← hnext]
  · obtain ⟨hmode, b, u, v, hb, hvalue, hs'⟩ := (outerStep_skip_iff htag h2).mp h
    have hlen := IsValue.not_len hvalue (fun h => h2 (UInt32.toNat_inj.mp h)) field.toNat
    refine ⟨e ++ b, u, ⟨field.toNat, v⟩, s, ?_, .mk hv hf hvalue, ?_, ?_⟩
    · rw [hsplit, ← ht, hb, List.append_assoc]
    · rw [absorb_of_not_len hlen, if_neg hmode]
    · rw [hs', List.length_append, ← Nat.add_assoc, ← hnext]

/-- A record at the cursor is read. -/
theorem outerStep_of_record {wire e t : Bytes} {mode : OuterConformance} {s s₁ : OuterState}
    {r : Wire.Record} (hsplit : wire.drop s.index = e ++ t) (hr : Wire.IsRecord e r)
    (habsorb : absorb mode s r = some s₁) :
    outerStep wire mode s = some (s₁.seek (s.index + e.length)) := by
  cases hr with
  | @mk tag body wt field v htag hf hvalue =>
    have hwt := hvalue.wireType_lt
    have hfield : (UInt32.ofNat field).toNat = field := by
      have := hf.2
      rw [UInt32.toNat_ofNat']
      omega
    have hwire : (UInt32.ofNat wt).toNat = wt := by
      rw [UInt32.toNat_ofNat']
      omega
    rw [List.append_assoc] at hsplit
    have hread : readTag wire s.index =
        some (UInt32.ofNat field, UInt32.ofNat wt, s.index + tag.length) :=
      readTag_eq_some_iff.mpr ⟨tag, body ++ t, hsplit, by rwa [hfield, hwire], by rwa [hwire],
        by rwa [hfield], rfl⟩
    have hbody := drop_add hsplit
    rw [List.length_append, ← Nat.add_assoc]
    by_cases h2 : wt = 2
    · subst h2
      cases hvalue with
      | @len l b hv =>
        rw [List.append_assoc] at hbody
        exact (outerStep_len_iff hread).mpr ⟨l, b, t, s₁, hbody, hv, habsorb, rfl⟩
    · have hne : UInt32.ofNat wt ≠ 2 := fun h => h2 (by rw [← hwire, h]; rfl)
      rw [absorb_of_not_len (IsValue.not_len hvalue h2 field)] at habsorb
      by_cases hmode : mode = .strict
      · rw [if_pos hmode] at habsorb
        cases habsorb
      · rw [if_neg hmode] at habsorb
        cases habsorb
        exact (outerStep_skip_iff hread hne).mpr
          ⟨hmode, body, t, v, hbody, by rwa [hwire], rfl⟩

theorem index_lt_of_outerStep {wire : Bytes} {mode : OuterConformance} {s s' : OuterState}
    (h : outerStep wire mode s = some s') :
    s.index < s'.index ∧ s'.index ≤ wire.length := by
  obtain ⟨e, t, r, s₁, hsplit, hr, _, rfl⟩ := record_of_outerStep h
  have hpos := hr.length_pos
  exact ⟨Nat.lt_add_of_pos_right hpos, add_le_of_drop hsplit hpos⟩

/-- The scan from the state `s` on. -/
def scanFrom (wire : Bytes) (mode : OuterConformance) (s : OuterState) :
    RawOuterDecomposeOutcome :=
  if s.index < wire.length then
    match _h : outerStep wire mode s with
    | some s' => scanFrom wire mode s'
    | none => .malformed
  else s.finish
termination_by wire.length - s.index
decreasing_by
  have := index_lt_of_outerStep _h
  omega

theorem scanFrom_of_some {wire : Bytes} {mode : OuterConformance} {s s' : OuterState}
    (hlt : s.index < wire.length) (hstep : outerStep wire mode s = some s') :
    scanFrom wire mode s = scanFrom wire mode s' := by
  rw [scanFrom, if_pos hlt]
  split
  · next h =>
    rw [hstep] at h
    cases h
    rfl
  · next h =>
    rw [hstep] at h
    cases h

theorem scanFrom_of_none {wire : Bytes} {mode : OuterConformance} {s : OuterState}
    (hlt : s.index < wire.length) (hstep : outerStep wire mode s = none) :
    scanFrom wire mode s = .malformed := by
  rw [scanFrom, if_pos hlt]
  split
  · next h =>
    rw [hstep] at h
    cases h
  · rfl

def decomposeRawOuter (wire : Bytes) (mode : OuterConformance) : RawOuterDecomposeOutcome :=
  scanFrom wire mode {}

/-! ## The scan folds over the records -/

theorem absorb_seek (mode : OuterConformance) (s : OuterState) (index : Nat) (r : Wire.Record) :
    absorb mode (s.seek index) r = (absorb mode s r).map (·.seek index) := by
  obtain ⟨field, value⟩ := r
  cases value with
  | len b => exact storeField_seek mode s index (UInt32.ofNat field) b
  | varint _ | i64 _ | i32 _ =>
    show (if mode = .strict then none else some (s.seek index)) =
      (if mode = .strict then none else some s).map (·.seek index)
    split <;> rfl

theorem foldlM_absorb_seek (mode : OuterConformance) (s : OuterState) (index : Nat)
    (rs : List Wire.Record) :
    rs.foldlM (absorb mode) (s.seek index) = (rs.foldlM (absorb mode) s).map (·.seek index) := by
  induction rs generalizing s with
  | nil => rfl
  | cons r rs ih =>
    rw [List.foldlM_cons, List.foldlM_cons, absorb_seek]
    cases absorb mode s r with
    | none => rfl
    | some s₁ => exact ih s₁

/-- The scan accepts when what is left is a record sequence whose records are
absorbed one by one. -/
theorem scanFrom_eq_ok_iff {wire : Bytes} {mode : OuterConformance} {s : OuterState}
    {p c : Bytes} :
    scanFrom wire mode s = .ok p c ↔
      ∃ rs s', Wire.Records (wire.drop s.index) rs ∧ rs.foldlM (absorb mode) s = some s' ∧
        s'.finish = .ok p c := by
  fun_induction scanFrom wire mode s with
  | case1 s hlt s' hstep ih =>
    obtain ⟨e, t, r, s₁, hsplit, hr, habsorb, rfl⟩ := record_of_outerStep hstep
    have ht : wire.drop (s₁.seek (s.index + e.length)).index = t := drop_add hsplit
    rw [ih, ht, hsplit]
    simp only [foldlM_absorb_seek, Option.map_eq_some_iff]
    constructor
    · intro h
      rcases h with ⟨rs, _, hrs, ⟨s₂, hfold, hseek⟩, hfin⟩
      subst hseek
      refine ⟨r :: rs, s₂, .cons hr hrs, ?_, hfin⟩
      rw [List.foldlM_cons, habsorb]
      exact hfold
    · intro h
      rcases h with ⟨rs, s₂, hrs, hfold, hfin⟩
      obtain ⟨rs', rfl, hrs'⟩ := hrs.tail hr
      rw [List.foldlM_cons, habsorb] at hfold
      exact ⟨rs', _, hrs', ⟨s₂, hfold, rfl⟩, hfin⟩
  | case2 s hlt hstep =>
    refine ⟨fun h => (by cases h), fun h => ?_⟩
    rcases h with ⟨rs, s', hrs, hfold, _⟩
    generalize hd : wire.drop s.index = d at hrs
    cases hrs with
    | nil =>
      have := congrArg List.length hd
      rw [List.length_drop, List.length_nil] at this
      omega
    | @cons e t r rs hr hrs =>
      rw [List.foldlM_cons] at hfold
      obtain ⟨s₁, habsorb, _⟩ := Option.bind_eq_some_iff.mp hfold
      have := outerStep_of_record hd hr habsorb
      rw [hstep] at this
      cases this
  | case3 s hlt =>
    rw [List.drop_eq_nil_of_le (Nat.not_lt.mp hlt)]
    constructor
    · intro h
      exact ⟨[], s, .nil, rfl, h⟩
    · intro h
      rcases h with ⟨rs, s', hrs, hfold, hfin⟩
      rw [hrs.eq_nil] at hfold
      cases hfold
      exact hfin

end Pb
end Core
end YamlSigil
