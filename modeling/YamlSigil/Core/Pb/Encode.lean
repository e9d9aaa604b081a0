/-
Protobuf encoding through a sink.

The encoder runs twice over one message: against a counter that only adds up
lengths with overflow checks, and against the output vector.  The writers are
therefore generic in the sink.  `SinkSpec R` says that the relation `R` between
a sink and the octets it has received is kept by both sink operations, and one
specification per writer, for every such `R`, serves the vector and the counter.
-/
import YamlSigil.Core.Pb.Message
import YamlSigil.Format.Wire

namespace YamlSigil
namespace Core
namespace Pb

open Format

/-! ## Sinks -/

class EncodeSink (σ : Type) where
  putU8 : σ → UInt8 → σ
  putSlice : σ → Bytes → σ

open EncodeSink (putU8 putSlice)

instance : EncodeSink Bytes where
  putU8 destination b := destination ++ [b]
  putSlice destination source := destination ++ source

inductive SizeComputationOverflow where
  | mk
deriving Repr, DecidableEq

/-- `u64::try_from` of a length. -/
def u64TryFrom (n : Nat) : Option UInt64 := if n < 2 ^ 64 then some (UInt64.ofNat n) else none

structure CheckedSizeSink where
  size : Nat := 0
  overflowed : Bool := false
deriving Repr, DecidableEq

namespace CheckedSizeSink

def addU64 (s : CheckedSizeSink) (amount : Nat) : CheckedSizeSink :=
  if s.size + amount < 2 ^ 64 then { s with size := s.size + amount }
  else { s with overflowed := true }

def addUsize (s : CheckedSizeSink) (amount : Nat) : CheckedSizeSink :=
  match u64TryFrom amount with
  | some n => s.addU64 n.toNat
  | none => { s with overflowed := true }

def finish (s : CheckedSizeSink) : Except SizeComputationOverflow Nat :=
  if s.overflowed then .error .mk else .ok s.size

end CheckedSizeSink

instance : EncodeSink CheckedSizeSink where
  putU8 s _ := s.addU64 1
  putSlice s source := s.addUsize source.length

/-! ## Writers -/

section
variable {σ : Type} [EncodeSink σ]

def pushVarint (destination : σ) (value : UInt64) : σ :=
  if _h : value ≥ 0x80 then
    pushVarint (putU8 destination (value.toUInt8 ||| 0x80)) (value >>> 7)
  else putU8 destination value.toUInt8
termination_by value.toNat
decreasing_by
  have h128 : 128 ≤ value.toNat := UInt64.le_iff_toNat_le.mp _h
  have h7 : (value >>> 7).toNat = value.toNat >>> 7 := UInt64.toNat_shiftRight value 7
  rw [h7, Nat.shiftRight_eq_div_pow]
  omega

def pushTag (destination : σ) (fieldNumber : UInt32) (wireType : UInt8) : σ :=
  pushVarint destination ((fieldNumber.toUInt64 <<< 3) ||| wireType.toUInt64)

/-- The result of a writer and the sink it leaves, also when it fails. -/
abbrev Written (σ : Type) := Except SizeComputationOverflow Unit × σ

/-- Go on with `k` unless the writer failed. -/
def Written.andThen (w : Written σ) (k : σ → Written σ) : Written σ :=
  match w with
  | (.ok (), d) => k d
  | (.error e, d) => (.error e, d)

def pushLenField (destination : σ) (fieldNumber : UInt32) (value : Bytes) : Written σ :=
  match u64TryFrom value.length with
  | none => (.error .mk, destination)
  | some valueLen =>
    (.ok (), putSlice (pushVarint (pushTag destination fieldNumber 2) valueLen) value)

def UnknownFields.writeTo (u : UnknownFields) (destination : σ) : σ :=
  u.fields.foldl putSlice destination

end

class FacadeEncode (α : Type) where
  writeFacadeWire : {σ : Type} → [EncodeSink σ] → α → σ → Written σ

open FacadeEncode (writeFacadeWire)

def rawFacadeEncodedLen {α : Type} [FacadeEncode α] (value : α) :
    Except SizeComputationOverflow Nat :=
  match writeFacadeWire value ({} : CheckedSizeSink) with
  | (.ok (), counter) => counter.finish
  | (.error e, _) => .error e

def checkEncodedMessageSize (B : Buffa) (encodedSize : Nat) : Except EncodeErrorKind Nat :=
  match u64TryFrom encodedSize with
  | none => .error .messageTooLarge
  | some n => if n > B.maxMessageBytes.toUInt64 then .error .messageTooLarge else .ok encodedSize

def facadeEncodedLen {α : Type} [FacadeEncode α] (B : Buffa) (value : α) :
    Except EncodeErrorKind Nat :=
  match rawFacadeEncodedLen value with
  | .error _ => .error .messageTooLarge
  | .ok rawSize => checkEncodedMessageSize B rawSize

def encodeFacadeToVec {α : Type} [FacadeEncode α] (B : Buffa) (value : α) :
    Except EncodeErrorKind Bytes :=
  match facadeEncodedLen B value with
  | .error e => .error e
  | .ok _ =>
    match writeFacadeWire value ([] : Bytes) with
    | (.ok (), destination) => .ok destination
    | (.error _, _) => .error .messageTooLarge

instance : FacadeEncode YamlSigilSignature where
  writeFacadeWire m destination :=
    let destination :=
      if m.algorithmWireValue ≠ 0 then
        pushVarint (pushTag destination 1 0) m.algorithmWireValue.toInt64.toUInt64
      else destination
    let afterKeyid :=
      match m.keyid with
      | some keyid => pushLenField destination 2 (asBytes keyid)
      | none => (.ok (), destination)
    let afterSignature := afterKeyid.andThen fun destination =>
      if m.signature ≠ [] then pushLenField destination 3 m.signature else (.ok (), destination)
    afterSignature.andThen fun destination => (.ok (), m.unknownFields.writeTo destination)

instance : FacadeEncode SignedYamlArtifact where
  writeFacadeWire m destination :=
    let afterPayload :=
      if m.payload ≠ [] then pushLenField destination 1 m.payload else (.ok (), destination)
    let afterSignature := afterPayload.andThen fun destination =>
      match m.signature with
      | none => (.ok (), destination)
      | some signature =>
        match rawFacadeEncodedLen signature with
        | .error e => (.error e, destination)
        | .ok signatureLen =>
          writeFacadeWire signature
            (pushVarint (pushTag destination 2 2) (UInt64.ofNat signatureLen))
    afterSignature.andThen fun destination => (.ok (), m.unknownFields.writeTo destination)

def YamlSigilSignature.encodeToVec (B : Buffa) (m : YamlSigilSignature) :
    Except EncodeErrorKind Bytes := encodeFacadeToVec B m

def SignedYamlArtifact.encodeToVec (B : Buffa) (m : SignedYamlArtifact) :
    Except EncodeErrorKind Bytes := encodeFacadeToVec B m

/-- The raw outer message of the transcription composer.  Both fields are always
written, also when they are empty. -/
structure RawOuter where
  payload : Bytes
  signatureCarrier : Bytes
deriving Repr, DecidableEq

instance : FacadeEncode RawOuter where
  writeFacadeWire m destination :=
    (pushLenField destination 1 m.payload).andThen fun destination =>
      pushLenField destination 2 m.signatureCarrier

def composeRawOuter (payload signatureCarrier : Bytes) : Run Bytes := do
  let raw : RawOuter := { payload, signatureCarrier }
  -- the size has 64 bits and so has `usize`: its conversion cannot fail
  let _ ← expectOk (rawFacadeEncodedLen raw)
  match writeFacadeWire raw ([] : Bytes) with
  | (.ok (), output) => some output
  | (.error _, _) => none

/-! ## What a sink receives -/

/-- `R d o`: the sink `d` has received the octets `o`. -/
structure SinkSpec {σ : Type} [EncodeSink σ] (R : σ → Bytes → Prop) : Prop where
  putU8 : ∀ {d o} b, R d o → R (putU8 d b) (o ++ [b])
  putSlice : ∀ {d o} s, R d o → R (putSlice d s) (o ++ s)

/-- The vector holds what it held before and the octets. -/
theorem vecSpec (start : Bytes) : SinkSpec fun (d o : Bytes) => d = start ++ o where
  putU8 := by
    intro d o b h
    rw [h, ← List.append_assoc]
    rfl
  putSlice := by
    intro d o s h
    rw [h, ← List.append_assoc]
    rfl

/-- The counter holds the number of octets, or has seen the overflow. -/
def Counts (s : CheckedSizeSink) (o : Bytes) : Prop :=
  (o.length < 2 ^ 64 → s = ⟨o.length, false⟩) ∧ (2 ^ 64 ≤ o.length → s.overflowed = true)

theorem Counts.add {s : CheckedSizeSink} {o p : Bytes} (h : Counts s o) :
    Counts (s.addU64 p.length) (o ++ p) := by
  unfold Counts CheckedSizeSink.addU64
  rw [List.length_append]
  by_cases ho : o.length < 2 ^ 64
  · rw [h.1 ho]
    by_cases hp : o.length + p.length < 2 ^ 64
    · exact ⟨fun _ => if_pos hp, fun hge => absurd hp (by omega)⟩
    · refine ⟨fun hlt => absurd hlt hp, fun _ => ?_⟩
      rw [if_neg hp]
  · have hover := h.2 (by omega)
    refine ⟨fun hlt => absurd hlt (by omega), fun _ => ?_⟩
    split <;> simp [hover]

theorem counterSpec : SinkSpec Counts where
  putU8 := fun b h => h.add (p := [b])
  putSlice := by
    intro d o s h
    show Counts (d.addUsize s.length) (o ++ s)
    unfold CheckedSizeSink.addUsize u64TryFrom
    by_cases hs : s.length < 2 ^ 64
    · have hn : (UInt64.ofNat s.length).toNat = s.length := by
        rw [UInt64.toNat_ofNat']
        omega
      simp only [hs, if_true, hn]
      exact h.add
    · simp only [hs, if_false]
      refine ⟨fun hlt => ?_, fun _ => rfl⟩
      rw [List.length_append] at hlt
      omega

theorem Written.andThen_error {σ : Type} {w : Written σ} {k : σ → Written σ}
    {e : SizeComputationOverflow} (h : w.1 = .error e) : (w.andThen k).1 = .error e := by
  obtain ⟨r, d⟩ := w
  subst h
  rfl

theorem Written.andThen_ok {σ : Type} {w : Written σ} {k : σ → Written σ} (h : w.1 = .ok ()) :
    (w.andThen k).1 = (k w.2).1 := by
  obtain ⟨r, d⟩ := w
  subst h
  rfl

/-- The writer succeeded and left a sink that has received `o`. -/
def Wrote {σ : Type} (R : σ → Bytes → Prop) (w : Written σ) (o : Bytes) : Prop :=
  w.1 = .ok () ∧ R w.2 o

theorem Wrote.andThen {σ : Type} {R : σ → Bytes → Prop} {w : Written σ} {o p : Bytes}
    {k : σ → Written σ} (h : Wrote R w o) (hk : ∀ {d}, R d o → Wrote R (k d) (o ++ p)) :
    Wrote R (w.andThen k) (o ++ p) := by
  obtain ⟨r, d⟩ := w
  obtain ⟨rfl, hd⟩ := h
  exact hk hd

theorem Wrote.skip {σ : Type} {R : σ → Bytes → Prop} {d : σ} {o : Bytes} (h : R d o) :
    Wrote R (.ok (), d) (o ++ []) := ⟨rfl, by rwa [List.append_nil]⟩

section
variable {σ : Type} [EncodeSink σ] {R : σ → Bytes → Prop}

theorem or_eq_add_of_octet : ∀ n < 256, n ||| 128 = n % 128 + 128 := by decide +kernel

theorem toUInt8_or_continuation (v : UInt64) :
    v.toUInt8 ||| 0x80 = UInt8.ofNat (v.toNat % 128 + 128) := by
  apply UInt8.toNat_inj.mp
  have hor := or_eq_add_of_octet (v.toNat % 256) (Nat.mod_lt _ (by decide))
  rw [UInt8.toNat_or, UInt64.toNat_toUInt8, UInt8.toNat_ofNat']
  show v.toNat % 256 ||| 128 = _
  omega

theorem pushVarint_spec (hR : SinkSpec R) {d : σ} {o : Bytes} (v : UInt64) (h : R d o) :
    R (pushVarint d v) (o ++ Varint.encode v.toNat) := by
  fun_induction pushVarint d v generalizing o with
  | case1 d v hv ih =>
    have h128 : 128 ≤ v.toNat := UInt64.le_iff_toNat_le.mp hv
    rw [Varint.encode_of_le h128, ← Varint.toNat_shiftRight_seven, ← toUInt8_or_continuation,
      List.append_cons]
    exact ih (hR.putU8 _ h)
  | case2 d v hv =>
    have hlt : v.toNat < 128 := by
      by_cases hlt : v.toNat < 128
      · exact hlt
      · exact absurd (UInt64.le_iff_toNat_le.mpr (Nat.not_lt.mp hlt)) hv
    rw [Varint.encode_of_lt hlt]
    exact hR.putU8 _ h

theorem tagValue_toNat (fieldNumber : UInt32) {wireType : UInt8} (hwt : wireType.toNat < 8) :
    ((fieldNumber.toUInt64 <<< 3) ||| wireType.toUInt64).toNat =
      8 * fieldNumber.toNat + wireType.toNat := by
  have hf := fieldNumber.toNat_lt
  have hshift : (fieldNumber.toUInt64 <<< 3).toNat = 2 ^ 3 * fieldNumber.toNat := by
    rw [UInt64.toNat_shiftLeft, UInt32.toNat_toUInt64]
    show fieldNumber.toNat <<< 3 % 2 ^ 64 = _
    rw [Nat.shiftLeft_eq]
    omega
  rw [UInt64.toNat_or, hshift, UInt8.toNat_toUInt64,
    ← Nat.two_pow_add_eq_or_of_lt (i := 3) hwt fieldNumber.toNat]

theorem pushTag_spec (hR : SinkSpec R) {d : σ} {o : Bytes} (fieldNumber : UInt32) {wireType : UInt8}
    (hwt : wireType.toNat < 8) (h : R d o) :
    R (pushTag d fieldNumber wireType) (o ++ Wire.tag fieldNumber.toNat wireType.toNat) := by
  have := pushVarint_spec hR ((fieldNumber.toUInt64 <<< 3) ||| wireType.toUInt64) h
  rwa [tagValue_toNat fieldNumber hwt] at this

theorem pushLenField_spec (hR : SinkSpec R) {d : σ} {o value : Bytes} (fieldNumber : UInt32)
    (hlen : value.length < 2 ^ 64) (h : R d o) :
    Wrote R (pushLenField d fieldNumber value) (o ++ Wire.lenField fieldNumber.toNat value) := by
  have hn : (UInt64.ofNat value.length).toNat = value.length := by
    rw [UInt64.toNat_ofNat']
    omega
  have htag := pushTag_spec hR fieldNumber (by decide : (2 : UInt8).toNat < 8) h
  have hput := hR.putSlice value (pushVarint_spec hR (UInt64.ofNat value.length) htag)
  unfold pushLenField u64TryFrom
  rw [if_pos hlen]
  refine ⟨rfl, ?_⟩
  rwa [hn, List.append_assoc, List.append_assoc] at hput

/-- A field that is left out when it is empty. -/
theorem pushNonEmpty_spec (hR : SinkSpec R) {d : σ} {o value : Bytes} (fieldNumber : UInt32)
    (hlen : value.length < 2 ^ 64) (h : R d o) :
    Wrote R (if value ≠ [] then pushLenField d fieldNumber value else (.ok (), d))
      (o ++ if value ≠ [] then Wire.lenField fieldNumber.toNat value else []) := by
  by_cases hne : value ≠ []
  · rw [if_pos hne, if_pos hne]
    exact pushLenField_spec hR fieldNumber hlen h
  · rw [if_neg hne, if_neg hne]
    exact Wrote.skip h

theorem writeTo_spec (hR : SinkSpec R) {d : σ} {o : Bytes} (u : UnknownFields) (h : R d o) :
    R (u.writeTo d) (o ++ u.fields.flatten) := by
  obtain ⟨fields⟩ := u
  show R (fields.foldl putSlice d) (o ++ fields.flatten)
  induction fields generalizing d o with
  | nil => rwa [List.flatten_nil, List.append_nil]
  | cons f fields ih =>
    rw [List.flatten_cons, ← List.append_assoc]
    exact ih (hR.putSlice f h)

end

/-! ## Lawful messages -/

/-- A message type whose writer emits `octets`, into any sink, unless the length
of one of its fields has no 64-bit representation. -/
class LawfulFacade (α : Type) [FacadeEncode α] where
  octets : α → Bytes
  Fits : α → Prop
  writes : ∀ {σ : Type} [EncodeSink σ] {R : σ → Bytes → Prop} {a : α} {d : σ} {o : Bytes},
    SinkSpec R → Fits a → R d o → Wrote R (writeFacadeWire a d) (o ++ octets a)
  fails : ∀ {σ : Type} [EncodeSink σ] {a : α} {d : σ}, ¬ Fits a →
    (writeFacadeWire a d).1 = .error .mk
  fits_of_lt : ∀ {a : α}, (octets a).length < 2 ^ 64 → Fits a

section
variable {α : Type} [FacadeEncode α] [LawfulFacade α]

open LawfulFacade (octets Fits)

theorem counts_empty : Counts {} [] := ⟨fun _ => rfl, fun h => absurd h (by decide)⟩

/-- The dry run computes the length of what the writer emits. -/
theorem rawFacadeEncodedLen_eq (a : α) :
    rawFacadeEncodedLen a =
      if (octets a).length < 2 ^ 64 then .ok (octets a).length else .error .mk := by
  unfold rawFacadeEncodedLen
  by_cases hfit : Fits a
  · obtain ⟨hok, hcount⟩ := LawfulFacade.writes counterSpec hfit counts_empty
    rw [List.nil_append] at hcount
    generalize writeFacadeWire a ({} : CheckedSizeSink) = w at hok hcount
    obtain ⟨r, s⟩ := w
    subst hok
    have hcount : Counts s (octets a) := hcount
    show s.finish = _
    unfold CheckedSizeSink.finish
    by_cases hlt : (octets a).length < 2 ^ 64
    · rw [hcount.1 hlt, if_pos hlt]
      rfl
    · rw [if_pos (hcount.2 (by omega)), if_neg hlt]
  · have hlt : ¬ (octets a).length < 2 ^ 64 := fun h => hfit (LawfulFacade.fits_of_lt h)
    have herr := LawfulFacade.fails (d := ({} : CheckedSizeSink)) hfit
    generalize writeFacadeWire a ({} : CheckedSizeSink) = w at herr
    obtain ⟨r, s⟩ := w
    subst herr
    rw [if_neg hlt]

theorem writeFacadeWire_nil (a : α) (h : (octets a).length < 2 ^ 64) :
    writeFacadeWire a ([] : Bytes) = (.ok (), octets a) := by
  obtain ⟨hok, hvec⟩ := LawfulFacade.writes (vecSpec []) (LawfulFacade.fits_of_lt h) (a := a)
    (show ([] : Bytes) = [] ++ [] from rfl)
  exact Prod.ext hok hvec

theorem checkEncodedMessageSize_eq_ok_iff {B : Buffa} {n m : Nat} :
    checkEncodedMessageSize B n = .ok m ↔ m = n ∧ n ≤ B.maxMessageBytes.toNat := by
  have hmax := B.maxMessageBytes.toNat_lt
  unfold checkEncodedMessageSize u64TryFrom
  by_cases hn : n < 2 ^ 64
  · have hval : (UInt64.ofNat n).toNat = n := by
      rw [UInt64.toNat_ofNat']
      omega
    have hgt : UInt64.ofNat n > B.maxMessageBytes.toUInt64 ↔ B.maxMessageBytes.toNat < n := by
      show B.maxMessageBytes.toUInt64 < UInt64.ofNat n ↔ _
      rw [UInt64.lt_iff_toNat_lt, hval, UInt32.toNat_toUInt64]
    simp only [hn, if_true]
    by_cases hle : B.maxMessageBytes.toNat < n
    · rw [if_pos (hgt.mpr hle)]
      exact ⟨fun h => (by cases h), fun h => absurd h.2 (by omega)⟩
    · rw [if_neg (fun h => hle (hgt.mp h))]
      exact ⟨fun h => ⟨(Except.ok.inj h).symm, by omega⟩, fun h => by rw [h.1]⟩
  · simp only [hn, if_false]
    exact ⟨fun h => (by cases h), fun h => absurd h.2 (by omega)⟩

/-- Encoding emits the octets of the message when they respect the ceiling, and
nothing else. -/
theorem encodeFacadeToVec_eq_ok_iff {B : Buffa} {a : α} {b : Bytes} :
    encodeFacadeToVec B a = .ok b ↔ b = octets a ∧ b.length ≤ B.maxMessageBytes.toNat := by
  have hmax := B.maxMessageBytes.toNat_lt
  unfold encodeFacadeToVec facadeEncodedLen
  rw [rawFacadeEncodedLen_eq]
  by_cases hlt : (octets a).length < 2 ^ 64
  · rw [if_pos hlt]
    show (match checkEncodedMessageSize B (octets a).length with
      | .error e => _
      | .ok _ => _) = _ ↔ _
    rw [writeFacadeWire_nil a hlt]
    cases hc : checkEncodedMessageSize B (octets a).length with
    | error e =>
      refine ⟨fun h => (by cases h), fun h => ?_⟩
      rw [h.1] at h
      rw [checkEncodedMessageSize_eq_ok_iff.mpr ⟨rfl, h.2⟩] at hc
      cases hc
    | ok n =>
      obtain ⟨-, hle⟩ := checkEncodedMessageSize_eq_ok_iff.mp hc
      refine ⟨fun h => ?_, fun h => by rw [h.1]⟩
      have hb : octets a = b := Except.ok.inj h
      rw [← hb]
      exact ⟨rfl, hle⟩
  · rw [if_neg hlt]
    refine ⟨fun h => (by cases h), fun h => ?_⟩
    rw [h.1] at h
    exact absurd h.2 (by omega)

end

theorem pushLenField_fst {σ : Type} [EncodeSink σ] {d : σ} {value : Bytes}
    (fieldNumber : UInt32) :
    (pushLenField d fieldNumber value).1 =
      if value.length < 2 ^ 64 then .ok () else .error .mk := by
  unfold pushLenField u64TryFrom
  by_cases h : value.length < 2 ^ 64
  · rw [if_pos h, if_pos h]
  · rw [if_neg h, if_neg h]

theorem pushNonEmpty_fst {σ : Type} [EncodeSink σ] {d : σ} {value : Bytes}
    (fieldNumber : UInt32) :
    (if value ≠ [] then pushLenField d fieldNumber value else (.ok (), d)).1 =
      if value.length < 2 ^ 64 then .ok () else .error .mk := by
  by_cases hne : value ≠ []
  · rw [if_pos hne, pushLenField_fst]
  · rw [if_neg hne, not_not.mp hne]
    rfl

/-! ## The octets of the messages -/

namespace YamlSigilSignature

def algorithmOctets (n : Int32) : Bytes :=
  if n ≠ 0 then Wire.varintField 1 n.toInt64.toUInt64.toNat else []

def keyidOctets : Option Text → Bytes
  | some keyid => Wire.lenField 2 (asBytes keyid)
  | none => []

def signatureOctets (signature : Bytes) : Bytes :=
  if signature ≠ [] then Wire.lenField 3 signature else []

def octets (m : YamlSigilSignature) : Bytes :=
  algorithmOctets m.algorithmWireValue ++ keyidOctets m.keyid ++ signatureOctets m.signature ++
    m.unknownFields.fields.flatten

def Fits (m : YamlSigilSignature) : Prop :=
  (∀ keyid ∈ m.keyid, (asBytes keyid).length < 2 ^ 64) ∧ m.signature.length < 2 ^ 64

end YamlSigilSignature

theorem length_le_lenField (field : Nat) (b : Bytes) :
    b.length ≤ (Wire.lenField field b).length := by
  unfold Wire.lenField
  rw [List.length_append, List.length_append]
  omega

theorem length_le_nonEmpty (field : Nat) (b : Bytes) :
    b.length ≤ (if b ≠ [] then Wire.lenField field b else []).length := by
  by_cases hne : b ≠ []
  · rw [if_pos hne]
    exact length_le_lenField field b
  · rw [if_neg hne, not_not.mp hne]

instance : LawfulFacade YamlSigilSignature where
  octets := YamlSigilSignature.octets
  Fits := YamlSigilSignature.Fits
  writes := by
    intro σ _ R m d o hR hfit hd
    obtain ⟨n, keyid, signature, unknown⟩ := m
    obtain ⟨hk, hs⟩ := hfit
    unfold YamlSigilSignature.octets
    simp only [← List.append_assoc]
    have halg : R (if n ≠ 0 then pushVarint (pushTag d 1 0) n.toInt64.toUInt64 else d)
        (o ++ YamlSigilSignature.algorithmOctets n) := by
      unfold YamlSigilSignature.algorithmOctets
      by_cases hn : n ≠ 0
      · rw [if_pos hn, if_pos hn]
        have htag := pushTag_spec hR 1 (by decide : (0 : UInt8).toNat < 8) hd
        have := pushVarint_spec hR n.toInt64.toUInt64 htag
        rwa [List.append_assoc] at this
      · rw [if_neg hn, if_neg hn, List.append_nil]
        exact hd
    refine Wrote.andThen (Wrote.andThen ?_ fun {d} hd => ?_) fun {d} hd => ?_
    · cases keyid with
      | none => exact Wrote.skip halg
      | some keyid => exact pushLenField_spec hR 2 (hk keyid rfl) halg
    · exact pushNonEmpty_spec hR 3 hs hd
    · exact ⟨rfl, writeTo_spec hR unknown hd⟩
  fails := by
    intro σ _ m d hfit
    obtain ⟨n, keyid, signature, unknown⟩ := m
    by_cases hk : ∀ k ∈ keyid, (asBytes k).length < 2 ^ 64
    · have hs : ¬ signature.length < 2 ^ 64 := fun hs => hfit ⟨hk, hs⟩
      refine Written.andThen_error ((Written.andThen_ok ?_).trans ?_)
      · cases keyid with
        | none => rfl
        | some keyid => exact (pushLenField_fst 2).trans (if_pos (hk keyid rfl))
      · exact (pushNonEmpty_fst 3).trans (if_neg hs)
    · cases keyid with
      | none => exact absurd (fun k hk => by cases hk) hk
      | some keyid =>
        have hlen : ¬ (asBytes keyid).length < 2 ^ 64 := fun hlen => hk fun k hk => by
          cases hk
          exact hlen
        refine Written.andThen_error (Written.andThen_error ?_)
        exact (pushLenField_fst 2).trans (if_neg hlen)
  fits_of_lt := by
    intro m h
    unfold YamlSigilSignature.octets at h
    simp only [List.length_append] at h
    refine ⟨fun keyid hkeyid => ?_, ?_⟩
    · have := length_le_lenField 2 (asBytes keyid)
      rw [Option.mem_def] at hkeyid
      rw [hkeyid, YamlSigilSignature.keyidOctets] at h
      omega
    · have := length_le_nonEmpty 3 m.signature
      rw [YamlSigilSignature.signatureOctets] at h
      omega

namespace SignedYamlArtifact

def payloadOctets (payload : Bytes) : Bytes :=
  if payload ≠ [] then Wire.lenField 1 payload else []

def signatureOctets : Option YamlSigilSignature → Bytes
  | some signature => Wire.lenField 2 signature.octets
  | none => []

def octets (m : SignedYamlArtifact) : Bytes :=
  payloadOctets m.payload ++ signatureOctets m.signature ++ m.unknownFields.fields.flatten

def Fits (m : SignedYamlArtifact) : Prop :=
  m.payload.length < 2 ^ 64 ∧ ∀ signature ∈ m.signature, signature.octets.length < 2 ^ 64

end SignedYamlArtifact

/-- The nested message is preceded by the length its own dry run computes. -/
theorem writeNested_spec {σ : Type} [EncodeSink σ] {R : σ → Bytes → Prop} (hR : SinkSpec R)
    {d : σ} {o : Bytes} {s : YamlSigilSignature} (hlt : s.octets.length < 2 ^ 64) (h : R d o) :
    Wrote R
      (match rawFacadeEncodedLen s with
        | .error e => (.error e, d)
        | .ok signatureLen =>
          writeFacadeWire s (pushVarint (pushTag d 2 2) (UInt64.ofNat signatureLen)))
      (o ++ Wire.lenField 2 s.octets) := by
  have hlen : rawFacadeEncodedLen s = .ok s.octets.length := by
    rw [rawFacadeEncodedLen_eq]
    exact if_pos hlt
  have hval : (UInt64.ofNat s.octets.length).toNat = s.octets.length := by
    rw [UInt64.toNat_ofNat']
    omega
  rw [hlen]
  have htag := pushTag_spec hR 2 (by decide : (2 : UInt8).toNat < 8) h
  have hprefix := pushVarint_spec hR (UInt64.ofNat s.octets.length) htag
  rw [hval] at hprefix
  have hbody := LawfulFacade.writes hR (LawfulFacade.fits_of_lt (a := s) hlt) hprefix
  rwa [List.append_assoc, List.append_assoc] at hbody

instance : LawfulFacade SignedYamlArtifact where
  octets := SignedYamlArtifact.octets
  Fits := SignedYamlArtifact.Fits
  writes := by
    intro σ _ R m d o hR hfit hd
    obtain ⟨payload, signature, unknown⟩ := m
    obtain ⟨hp, hs⟩ := hfit
    unfold SignedYamlArtifact.octets
    simp only [← List.append_assoc]
    refine Wrote.andThen (Wrote.andThen ?_ fun {d} hd => ?_) fun {d} hd => ?_
    · exact pushNonEmpty_spec hR 1 hp hd
    · cases signature with
      | none => exact Wrote.skip hd
      | some s => exact writeNested_spec hR (hs s rfl) hd
    · exact ⟨rfl, writeTo_spec hR unknown hd⟩
  fails := by
    intro σ _ m d hfit
    obtain ⟨payload, signature, unknown⟩ := m
    by_cases hp : payload.length < 2 ^ 64
    · cases signature with
      | none => exact absurd ⟨hp, fun s hs => by cases hs⟩ hfit
      | some s =>
        have hlt : ¬ s.octets.length < 2 ^ 64 := fun hlt => hfit ⟨hp, fun t ht => by
          cases ht
          exact hlt⟩
        have hlen : rawFacadeEncodedLen s = .error .mk := by
          rw [rawFacadeEncodedLen_eq]
          exact if_neg hlt
        refine Written.andThen_error ((Written.andThen_ok ?_).trans ?_)
        · exact (pushNonEmpty_fst 1).trans (if_pos hp)
        · simp only [hlen]
    · refine Written.andThen_error (Written.andThen_error ?_)
      exact (pushNonEmpty_fst 1).trans (if_neg hp)
  fits_of_lt := by
    intro m h
    unfold SignedYamlArtifact.octets at h
    simp only [List.length_append] at h
    refine ⟨?_, fun s hs => ?_⟩
    · have := length_le_nonEmpty 1 m.payload
      rw [SignedYamlArtifact.payloadOctets] at h
      omega
    · have := length_le_lenField 2 s.octets
      rw [Option.mem_def] at hs
      rw [hs, SignedYamlArtifact.signatureOctets] at h
      omega

namespace RawOuter

def octets (m : RawOuter) : Bytes :=
  Wire.lenField 1 m.payload ++ Wire.lenField 2 m.signatureCarrier

def Fits (m : RawOuter) : Prop :=
  m.payload.length < 2 ^ 64 ∧ m.signatureCarrier.length < 2 ^ 64

end RawOuter

instance : LawfulFacade RawOuter where
  octets := RawOuter.octets
  Fits := RawOuter.Fits
  writes := by
    intro σ _ R m d o hR hfit hd
    unfold RawOuter.octets
    rw [← List.append_assoc]
    exact Wrote.andThen (pushLenField_spec hR 1 hfit.1 hd) fun {d} hd =>
      pushLenField_spec hR 2 hfit.2 hd
  fails := by
    intro σ _ m d hfit
    by_cases hp : m.payload.length < 2 ^ 64
    · refine (Written.andThen_ok ((pushLenField_fst 1).trans (if_pos hp))).trans ?_
      exact (pushLenField_fst 2).trans (if_neg fun hc => hfit ⟨hp, hc⟩)
    · exact Written.andThen_error ((pushLenField_fst 1).trans (if_neg hp))
  fits_of_lt := by
    intro m h
    have hp := length_le_lenField 1 m.payload
    have hc := length_le_lenField 2 m.signatureCarrier
    rw [RawOuter.octets, List.length_append] at h
    exact ⟨by omega, by omega⟩

theorem composeRawOuter_eq {p c : Bytes} :
    composeRawOuter p c =
      if (RawOuter.octets ⟨p, c⟩).length < 2 ^ 64 then some (RawOuter.octets ⟨p, c⟩) else none := by
  have hlen := rawFacadeEncodedLen_eq (RawOuter.mk p c)
  show (expectOk (rawFacadeEncodedLen (RawOuter.mk p c))).bind _ = _
  rw [hlen]
  show (expectOk (if (RawOuter.octets ⟨p, c⟩).length < 2 ^ 64 then _ else _)).bind _ = _
  by_cases hlt : (RawOuter.octets ⟨p, c⟩).length < 2 ^ 64
  · rw [if_pos hlt, if_pos hlt, expectOk_ok, Option.bind_some,
      writeFacadeWire_nil (RawOuter.mk p c) hlt]
    rfl
  · rw [if_neg hlt, if_neg hlt]
    rfl

/-- The composer panics only when the wire length has no 64-bit representation. -/
theorem composeRawOuter_eq_some_iff {p c w : Bytes} :
    composeRawOuter p c = some w ↔ w = RawOuter.octets ⟨p, c⟩ ∧ w.length < 2 ^ 64 := by
  rw [composeRawOuter_eq]
  constructor
  · intro h
    rw [Option.ite_none_right_eq_some, Option.some.injEq] at h
    obtain ⟨hlt, rfl⟩ := h
    exact ⟨rfl, hlt⟩
  · intro h
    rcases h with ⟨hw, hlt⟩
    subst hw
    rw [if_pos hlt]

end Pb
end Core
end YamlSigil
