/-
Composing and decomposing from JavaScript.

The lengths of the views are admitted before anything is copied, so a policy refuses early.
What it refuses is what the library would have refused, and what is composed under it comes
apart under it.
-/
import YamlSigil.Core.OuterRoundTrip
import YamlSigil.Transcription.Bounded
import YamlSigil.Transcription.RoundTrip
import YamlSigil.Wasm.SchemaGate

namespace YamlSigil
namespace Wasm

open YamlSigil.Core Transcription

/-! ## Failures of output -/

/-- `Failure` with its encoding errors, which no input meets. -/
inductive OutputFailure where
  | input (failure : Failure)
  | encoding (code : Text)
deriving Repr, DecidableEq

def OutputFailure.status : OutputFailure → Text
  | .input failure => failure.status
  | .encoding _ => "encode_error".toList

def OutputFailure.code : OutputFailure → Text
  | .input failure => failure.code
  | .encoding code => code

/-- `From<EncodeError>` -/
def OutputFailure.ofEncodeError : Pb.EncodeErrorKind → OutputFailure
  | .messageTooLarge => .encoding "message_too_large".toList
  | .other => .encoding "other".toList

def flattenEncoding {α : Type} :
    Except ArtifactResourceError (Except Pb.EncodeErrorKind α) → Except OutputFailure α
  | .error error => .error (.input (.ofResourceError error))
  | .ok (.error error) => .error (.ofEncodeError error)
  | .ok (.ok a) => .ok a

/-- The sum of the lengths. -/
def totalLength : List Nat → Option Nat :=
  List.foldl (fun total length => total.bind (checkedAdd · length)) (some 0)

/-- The octets of the components are fewer than those of the output. -/
def withAdmittedOutput (limits : ArtifactResourceLimits) (form : ArtifactResourceForm)
    (lengths : List Nat) : Except Failure Unit :=
  match totalLength lengths with
  | none => .error (.ofResourceError (limits.sizeComputationOverflow form))
  | some minimum =>
    match limits.checkOutputSizeLowerBound form minimum with
    | .error error => .error (.ofResourceError error)
    | .ok _ => .ok ()

/-! ## Selectors and codes -/

def transcriptionForm (value : Text) : Option TranscriptionForm :=
  if value = "yaml".toList then some .yaml
  else if value = "protobuf".toList then some .protobuf
  else none

def outerConformance (value : Text) : Option Pb.OuterConformance :=
  if value = "strict".toList then some .strict
  else if value = "signature_strict".toList then some .signatureStrict
  else none

def transcriberInvocationCode : TranscriberInvocationError → Text
  | .invalidOrUnsupportedForm => "invalid_or_unsupported_form".toList
  | .invalidOrUnsupportedOuterConformance =>
    "invalid_or_unsupported_outer_conformance".toList

def transcriberErrorCode : TranscriberError → Text
  | .invalidPayloadBytes => "invalid_payload_bytes".toList
  | .invalidSignatureCarrier => "invalid_signature_carrier".toList

def composedForm : TranscriptionForm → ArtifactResourceForm
  | .yaml => .yaml
  | .protobuf => .protobuf

/-! ## Composition -/

structure ComposeResult where
  status : Text
  code : Option Text
  artifact : Option Bytes
deriving Repr, DecidableEq

namespace ComposeResult

def failure (error : OutputFailure) : ComposeResult where
  status := error.status
  code := some error.code
  artifact := none

def ofOutcome : ComposeOutcome → ComposeResult
  | .success success => ⟨"success".toList, none, some success.artifact⟩
  | .invocation error => ⟨"invocation_error".toList, some (transcriberInvocationCode error), none⟩
  | .error error => ⟨"error".toList, some (transcriberErrorCode error), none⟩

end ComposeResult

/-- The octets of both views, behind the admission of their lengths. -/
def composeInputs (payload signatureCarrier : Uint8Array) (form : TranscriptionForm)
    (limits : Option ArtifactResourceLimits) : Except Failure (Bytes × Bytes) := do
  let payload ← ByteInput.new payload
  let signatureCarrier ← ByteInput.new signatureCarrier
  limits.elim (.ok ()) fun limits =>
    withAdmittedOutput limits (composedForm form) [payload.length, signatureCarrier.length]
  let payload ← payload.toVec
  let signatureCarrier ← signatureCarrier.toVec
  .ok (payload, signatureCarrier)

def composeOutcome (B : Pb.Buffa) (request : ComposeRequest) :
    Option ArtifactResourceLimits → Run (Except OutputFailure ComposeOutcome)
  | some limits => (composeWithResourceLimits B request limits).map flattenEncoding
  | none => (compose request).map .ok

def composeImpl (B : Pb.Buffa) (payload signatureCarrier : Uint8Array) (formSelector : Text)
    (limits : Option ArtifactResourceLimits) : Run ComposeResult :=
  match transcriptionForm formSelector with
  | none => some ⟨"invocation_error".toList, some "invalid_or_unsupported_form".toList, none⟩
  | some form =>
    match composeInputs payload signatureCarrier form limits with
    | .error error => some (.failure (.input error))
    | .ok (payload, signatureCarrier) =>
      (composeOutcome B ⟨payload, signatureCarrier, form⟩ limits).map fun
        | .error error => .failure error
        | .ok outcome => .ofOutcome outcome

/-! ## Decomposition -/

structure DecomposeResult where
  status : Text
  code : Option Text
  payload : Option Bytes
  signatureCarrier : Option Bytes
deriving Repr, DecidableEq

namespace DecomposeResult

def failure (error : Failure) : DecomposeResult where
  status := error.status
  code := some error.code
  payload := none
  signatureCarrier := none

def invocation (code : Text) : DecomposeResult :=
  ⟨"invocation_error".toList, some code, none, none⟩

def ofResponse : DecomposeResponse → DecomposeResult
  | .invocation error => .invocation (transcriberInvocationCode error)
  | .structural result =>
    match result.outcome with
    | .ok => ⟨"ok".toList, none, result.payload, result.signatureCarrier⟩
    | .unsigned => ⟨"unsigned".toList, none, none, none⟩
    | .malformedAttemptedSigned => ⟨"malformed_attempted_signed".toList, none, none, none⟩

end DecomposeResult

def decomposeWithResourceLimits (request : DecomposeRequest) (limits : ArtifactResourceLimits) :
    Except ArtifactResourceError DecomposeResponse := do
  let _ ← limits.checkInputSize (composedForm request.form) request.artifact
  .ok (decompose request)

def decomposeOutcome (request : DecomposeRequest) :
    Option ArtifactResourceLimits → DecomposeResult
  | none => .ofResponse (decompose request)
  | some limits =>
    match decomposeWithResourceLimits request limits with
    | .error error => .failure (.ofResourceError error)
    | .ok response => .ofResponse response

/-- The mode that is asked for, if any. -/
def selectedConformance : Option Text → Option (Option Pb.OuterConformance)
  | none => some none
  | some value => (outerConformance value).map some

def decomposeImpl (artifact : Uint8Array) (formSelector : Text) (outer : Option Text)
    (limits : Option ArtifactResourceLimits) : DecomposeResult :=
  match ByteInput.new artifact with
  | .error error => .failure error
  | .ok artifact =>
    match limits.elim (.ok ()) fun limits => withAdmittedInput limits artifact.length with
    | .error error => .failure error
    | .ok () =>
      match transcriptionForm formSelector with
      | none => .invocation "invalid_or_unsupported_form".toList
      | some form =>
        match selectedConformance outer with
        | none => .invocation "invalid_or_unsupported_outer_conformance".toList
        | some outer =>
          match artifact.toVec with
          | .error error => .failure error
          | .ok artifact => decomposeOutcome ⟨artifact, form, outer⟩ limits

/-! ## What a policy admits -/

/-- The octets of a view that can be measured and copied. -/
def octetsOf (view : Uint8Array) : Option Bytes := view.bind ByteInput.copied

/-- An output of `n` octets is within the policy, and in wire form within the ceiling of the
format. -/
def Passes (B : Pb.Buffa) (limits : Option ArtifactResourceLimits) (wire : Prop) (n : Nat) :
    Prop :=
  ∀ l ∈ limits, n ≤ l.ceiling ∧ (wire → n ≤ B.maxMessageBytes.toNat)

theorem withAdmittedInput_of_not_exceeded {limits : ArtifactResourceLimits} {n : Nat}
    (h : ¬limits.Exceeded n) : withAdmittedInput limits n = .ok () := by
  refine if_neg fun hany => h ?_
  obtain ⟨maximum, hmax, hlt⟩ := (Option.any_eq_true _ _).mp hany
  exact ⟨maximum, hmax, of_decide_eq_true hlt⟩

theorem le_ceiling_iff {limits : ArtifactResourceLimits} {n : Nat} :
    n ≤ limits.ceiling ↔ ¬limits.Exceeded n ∧ n < 2 ^ 64 := by
  rw [← Nat.not_lt, ArtifactResourceLimits.ceiling_lt_iff, not_or, Nat.not_le]

theorem totalLength_eq (lengths : List Nat) : totalLength lengths = usizeOf lengths.sum := by
  have hfold : ∀ n, lengths.foldl (fun total length => total.bind (checkedAdd · length))
      (usizeOf n) = usizeOf (n + lengths.sum) := by
    induction lengths with
    | nil => exact fun n => rfl
    | cons length rest ih =>
      intro n
      rw [List.foldl_cons, bind_checkedAdd, ih, List.sum_cons, Nat.add_assoc]
  rw [← Nat.zero_add lengths.sum]
  exact hfold 0

theorem withAdmittedOutput_eq_ok_iff {limits : ArtifactResourceLimits}
    {form : ArtifactResourceForm} {lengths : List Nat} {u : Unit} :
    withAdmittedOutput limits form lengths = .ok u ↔ lengths.sum ≤ limits.ceiling := by
  unfold withAdmittedOutput
  rw [totalLength_eq, le_ceiling_iff]
  rcases Nat.lt_or_ge lengths.sum (2 ^ 64) with hlt | hge
  · rw [usizeOf_of_lt hlt]
    by_cases hexceeded : limits.Exceeded lengths.sum
    · obtain ⟨e, he, -⟩ :=
        ArtifactResourceLimits.checkOutputSizeLowerBound_of_exceeded form hexceeded
      simp only [he]
      exact ⟨fun h => (by cases h), fun h => absurd hexceeded h.1⟩
    · simp only [ArtifactResourceLimits.checkOutputSizeLowerBound_of_not_exceeded form hexceeded]
      exact ⟨fun _ => ⟨hexceeded, hlt⟩, fun _ => trivial⟩
  · rw [usizeOf_of_le hge]
    exact ⟨fun h => (by cases h), fun h => absurd h.2 (Nat.not_lt.mpr hge)⟩

/-- A bounded operation succeeds where the other does, within the bounds. -/
theorem success_iff_of_filters {B : Pb.Buffa} {l : ArtifactResourceLimits} {wire : Prop}
    {n : Nat} {α : Type} {a : α} {unbounded : Run α}
    {bounded : Run (Except ArtifactResourceError (Except Pb.EncodeErrorKind α))}
    (h : Pb.Filters B l wire n unbounded bounded) :
    bounded = some (.ok (.ok a)) ↔ unbounded = some a ∧ Passes B (some l) wire n := by
  constructor
  · intro hok
    have hceiling : n ≤ l.ceiling := by
      refine Nat.not_lt.mp fun hlt => ?_
      obtain ⟨e, he⟩ := h.resource.mpr hlt
      rw [hok] at he
      cases he
    have hwire : wire → n ≤ B.maxMessageBytes.toNat := by
      intro hwire
      refine Nat.not_lt.mp fun hlt => ?_
      have he := h.format.mpr ⟨hceiling, hwire, hlt⟩
      rw [hok] at he
      cases he
    rw [h.admitted hceiling hwire] at hok
    obtain ⟨a', ha', heq⟩ := Option.map_eq_some_iff.mp hok
    cases heq
    exact ⟨ha', fun _ hl => by cases hl; exact ⟨hceiling, hwire⟩⟩
  · rintro ⟨ha, hpasses⟩
    obtain ⟨hceiling, hwire⟩ := hpasses l rfl
    rw [h.admitted hceiling hwire, ha]
    rfl

theorem toVec_eq_ok_iff {input : ByteInput} {bytes : Bytes} :
    input.toVec = .ok bytes ↔ input.copied = some bytes := by
  unfold ByteInput.toVec
  cases input.copied with
  | none => exact ⟨fun h => (by cases h), fun h => (by cases h)⟩
  | some b => rw [Except.ok.injEq, Option.some.injEq]

theorem octetsOf_eq_some {view : Uint8Array} {input : ByteInput} {bytes : Bytes}
    (hnew : ByteInput.new view = .ok input) (hcopied : input.toVec = .ok bytes) :
    octetsOf view = some bytes := by
  cases view with
  | none => cases hnew
  | some view =>
    cases hnew
    exact toVec_eq_ok_iff.mp hcopied

theorem composeInputs_eq_ok_iff {payload signatureCarrier : Uint8Array}
    {form : TranscriptionForm} {limits : Option ArtifactResourceLimits} {p c : Bytes} :
    composeInputs payload signatureCarrier form limits = .ok (p, c) ↔
      octetsOf payload = some p ∧ octetsOf signatureCarrier = some c ∧
        ∀ l ∈ limits, p.length + c.length ≤ l.ceiling := by
  constructor
  · intro h
    obtain ⟨payload', hpayload, h⟩ := bind_eq_ok_iff.mp h
    obtain ⟨carrier, hcarrier, h⟩ := bind_eq_ok_iff.mp h
    obtain ⟨_, hadmitted, h⟩ := bind_eq_ok_iff.mp h
    obtain ⟨p', hp, h⟩ := bind_eq_ok_iff.mp h
    obtain ⟨c', hc, h⟩ := bind_eq_ok_iff.mp h
    cases h
    refine ⟨octetsOf_eq_some hpayload hp, octetsOf_eq_some hcarrier hc, fun l hl => ?_⟩
    rw [Option.mem_def.mp hl] at hadmitted
    have hle := withAdmittedOutput_eq_ok_iff.mp hadmitted
    rw [length_of_toVec hp, length_of_toVec hc]
    simpa using hle
  · rintro ⟨hp, hc, hle⟩
    obtain ⟨payload', rfl, hp⟩ := Option.bind_eq_some_iff.mp hp
    obtain ⟨carrier, rfl, hc⟩ := Option.bind_eq_some_iff.mp hc
    have hp := toVec_eq_ok_iff.mpr hp
    have hc := toVec_eq_ok_iff.mpr hc
    have hadmitted : limits.elim (.ok ()) (fun limits => withAdmittedOutput limits
        (composedForm form) [payload'.length, carrier.length]) = .ok () := by
      cases limits with
      | none => rfl
      | some l =>
        have hle := hle l rfl
        rw [length_of_toVec hp, length_of_toVec hc] at hle
        exact withAdmittedOutput_eq_ok_iff.mpr (by simpa using hle)
    exact bind_eq_ok_iff.mpr ⟨payload', rfl, bind_eq_ok_iff.mpr ⟨carrier, rfl,
      bind_eq_ok_iff.mpr ⟨(), hadmitted, bind_eq_ok_iff.mpr ⟨p, hp,
        bind_eq_ok_iff.mpr ⟨c, hc, rfl⟩⟩⟩⟩⟩

section
variable {B : Pb.Buffa} {limits : Option ArtifactResourceLimits}

theorem flattenEncoding_eq_ok_iff {α : Type} {a : α}
    {r : Except ArtifactResourceError (Except Pb.EncodeErrorKind α)} :
    flattenEncoding r = .ok a ↔ r = .ok (.ok a) := by
  rcases r with e | e | a'
  · exact ⟨fun h => (by cases h), fun h => (by cases h)⟩
  · exact ⟨fun h => (by cases h), fun h => (by cases h)⟩
  · exact ⟨fun h => by cases h; rfl, fun h => by cases h; rfl⟩

theorem map_eq_some_of_iff {α β : Type} {f : α → β} {b : β} {a : α} {run : Run α}
    (hf : ∀ x, f x = b ↔ x = a) : run.map f = some b ↔ run = some a := by
  rw [Option.map_eq_some_iff]
  constructor
  · rintro ⟨x, hx, hb⟩
    rw [hx, (hf x).mp hb]
  · exact fun h => ⟨a, h, (hf a).mpr rfl⟩

theorem composeOutcome_eq_success_iff {req : ComposeRequest} {s : ComposeSuccess} :
    composeOutcome B req limits = some (.ok (.success s)) ↔ compose req = some (.success s) ∧
      Passes B limits (req.form = .protobuf) s.artifact.length := by
  cases limits with
  | none =>
    have hmap : composeOutcome B req none = some (.ok (.success s)) ↔
        compose req = some (.success s) :=
      map_eq_some_of_iff fun _ => iff_of_eq (Except.ok.injEq _ _)
    rw [hmap]
    exact ⟨fun h => ⟨h, fun _ hl => by cases hl⟩, fun h => h.1⟩
  | some l =>
    have hmap : composeOutcome B req (some l) = some (.ok (.success s)) ↔
        composeWithResourceLimits B req l = some (.ok (.ok (.success s))) :=
      map_eq_some_of_iff fun _ => flattenEncoding_eq_ok_iff
    rw [hmap, success_iff_of_filters (composeWithResourceLimits_spec B req l)]
    constructor
    · rintro ⟨hcompose, hpasses⟩
      rw [length_of_compose hcompose]
      exact ⟨hcompose, hpasses⟩
    · rintro ⟨hcompose, hpasses⟩
      rw [length_of_compose hcompose] at hpasses
      exact ⟨hcompose, hpasses⟩

/-- The artifact is not shorter than its components. -/
theorem length_le_composedLength (req : ComposeRequest) :
    req.payload.length + req.signatureCarrier.length ≤ composedLength req := by
  unfold composedLength
  cases req.form with
  | yaml =>
    show _ ≤ req.payload.length + 4 + req.signatureCarrier.length
    omega
  | protobuf =>
    show _ ≤ (Pb.RawOuter.octets _).length
    rw [length_rawOuter]
    exact Nat.add_le_add (le_lenFieldSize _) (le_lenFieldSize _)

def ComposeResult.success (artifact : Bytes) : ComposeResult :=
  ⟨"success".toList, none, some artifact⟩

theorem ofOutcome_eq_success_iff {outcome : ComposeOutcome} {a : Bytes} :
    ComposeResult.ofOutcome outcome = .success a ↔
      ∃ s, outcome = .success s ∧ s.artifact = a := by
  constructor
  · intro h
    have hartifact := congrArg ComposeResult.artifact h
    cases outcome with
    | success s => exact ⟨s, rfl, Option.some.inj hartifact⟩
    | invocation e => cases hartifact
    | error e => cases hartifact
  · rintro ⟨s, rfl, rfl⟩
    rfl

theorem failure_ne_success (e : OutputFailure) (a : Bytes) :
    ComposeResult.failure e ≠ .success a := fun h => by
  have hartifact := congrArg ComposeResult.artifact h
  cases hartifact

/-- A success is a success of the library, on octets that could be copied, that passes. -/
theorem composeImpl_eq_success_iff {payload signatureCarrier : Uint8Array}
    {formSelector : Text} {a : Bytes} :
    composeImpl B payload signatureCarrier formSelector limits = some (.success a) ↔
      ∃ form p c s, transcriptionForm formSelector = some form ∧ octetsOf payload = some p ∧
        octetsOf signatureCarrier = some c ∧ compose ⟨p, c, form⟩ = some (.success s) ∧
        s.artifact = a ∧ Passes B limits (form = .protobuf) a.length := by
  constructor
  · intro h
    unfold composeImpl at h
    cases hform : transcriptionForm formSelector with
    | none =>
      rw [hform] at h
      have hartifact := congrArg ComposeResult.artifact (Option.some.inj h)
      cases hartifact
    | some form =>
      rw [hform] at h
      simp only at h
      cases hinputs : composeInputs payload signatureCarrier form limits with
      | error e =>
        rw [hinputs] at h
        exact (failure_ne_success _ _ (Option.some.inj h)).elim
      | ok pair =>
        obtain ⟨p, c⟩ := pair
        obtain ⟨hp, hc, -⟩ := composeInputs_eq_ok_iff.mp hinputs
        rw [hinputs] at h
        obtain ⟨outcome, houtcome, h⟩ := Option.map_eq_some_iff.mp h
        cases outcome with
        | error e => exact (failure_ne_success _ _ h).elim
        | ok outcome =>
          obtain ⟨s, rfl, rfl⟩ := ofOutcome_eq_success_iff.mp h
          obtain ⟨hcompose, hpasses⟩ := composeOutcome_eq_success_iff.mp houtcome
          exact ⟨form, p, c, s, rfl, hp, hc, hcompose, rfl, hpasses⟩
  · rintro ⟨form, p, c, s, hform, hp, hc, hcompose, rfl, hpasses⟩
    have hlength := length_le_composedLength ⟨p, c, form⟩
    rw [← length_of_compose hcompose] at hlength
    have hinputs : composeInputs payload signatureCarrier form limits = .ok (p, c) :=
      composeInputs_eq_ok_iff.mpr ⟨hp, hc, fun l hl => Nat.le_trans hlength (hpasses l hl).1⟩
    unfold composeImpl
    rw [hform]
    simp only [hinputs]
    rw [composeOutcome_eq_success_iff.mpr ⟨hcompose, hpasses⟩]
    rfl

theorem transcriptionForm_eq_some_iff {formSelector : Text} {form : TranscriptionForm} :
    transcriptionForm formSelector = some form ↔
      (formSelector = "yaml".toList ∧ form = .yaml) ∨
        (formSelector = "protobuf".toList ∧ form = .protobuf) := by
  unfold transcriptionForm
  constructor
  · intro h
    split_ifs at h with hyaml hproto
    · exact .inl ⟨hyaml, (Option.some.inj h).symm⟩
    · exact .inr ⟨hproto, (Option.some.inj h).symm⟩
  · rintro (⟨rfl, rfl⟩ | ⟨rfl, rfl⟩)
    · exact if_pos rfl
    · exact (if_neg (by decide)).trans (if_pos rfl)

theorem protobuf_iff_of_transcriptionForm {formSelector : Text} {form : TranscriptionForm}
    (h : transcriptionForm formSelector = some form) :
    form = .protobuf ↔ formSelector = "protobuf".toList := by
  rcases transcriptionForm_eq_some_iff.mp h with ⟨rfl, rfl⟩ | ⟨rfl, rfl⟩
  · exact ⟨fun h => (by cases h), fun h => absurd h (by decide)⟩
  · exact ⟨fun _ => rfl, fun _ => rfl⟩

/-- Main result on policies of composition: under one, exactly those artifacts are composed
that are composed without one and pass it. -/
theorem compose_policy_exact (B : Pb.Buffa) (payload signatureCarrier : Uint8Array)
    (formSelector : Text) (l : ArtifactResourceLimits) (a : Bytes) :
    composeImpl B payload signatureCarrier formSelector (some l) = some (.success a) ↔
      composeImpl B payload signatureCarrier formSelector none = some (.success a) ∧
        Passes B (some l) (formSelector = "protobuf".toList) a.length := by
  rw [composeImpl_eq_success_iff, composeImpl_eq_success_iff]
  constructor
  · rintro ⟨form, p, c, s, hform, hp, hc, hcompose, rfl, hpasses⟩
    rw [protobuf_iff_of_transcriptionForm hform] at hpasses
    exact ⟨⟨form, p, c, s, hform, hp, hc, hcompose, rfl, fun _ hl => by cases hl⟩, hpasses⟩
  · rintro ⟨⟨form, p, c, s, hform, hp, hc, hcompose, rfl, -⟩, hpasses⟩
    rw [← protobuf_iff_of_transcriptionForm hform] at hpasses
    exact ⟨form, p, c, s, hform, hp, hc, hcompose, rfl, hpasses⟩

/-! ## Composition and back -/

/-- An artifact that passes is admitted as an input. -/
theorem decomposeImpl_attached {a : Bytes} {formSelector : Text} {form : TranscriptionForm}
    (hform : transcriptionForm formSelector = some form) {outer : Option Text}
    {mode : Option Pb.OuterConformance} (hmode : selectedConformance outer = some mode)
    {wire : Prop} (hpasses : Passes B limits wire a.length) :
    decomposeImpl (attached a) formSelector outer limits =
      .ofResponse (decompose ⟨a, form, mode⟩) := by
  have hadmitted : ∀ l ∈ limits, ¬l.Exceeded a.length := fun l hl =>
    ArtifactResourceLimits.not_exceeded_of_le (hpasses l hl).1
  cases limits with
  | none =>
    unfold decomposeImpl
    simp only [attached, ByteInput.new, Option.elim_none, hform, hmode, ByteInput.toVec]
    rfl
  | some l =>
    have hnot := hadmitted l rfl
    unfold decomposeImpl
    simp only [attached, ByteInput.new, Option.elim_some,
      withAdmittedInput_of_not_exceeded hnot, hform, hmode, ByteInput.toVec, decomposeOutcome,
      decomposeWithResourceLimits,
      ArtifactResourceLimits.checkInputSize_of_not_exceeded (composedForm form) hnot]
    rfl

/-- Main result on composing from JavaScript: what is composed comes apart under the same
policy into what was given, a YAML artifact if its carrier is text and not empty. -/
theorem exports_compose_then_decompose {payload signatureCarrier : Uint8Array}
    {formSelector : Text} {a : Bytes}
    (h : composeImpl B payload signatureCarrier formSelector limits = some (.success a)) :
    ∃ p c, octetsOf payload = some p ∧ octetsOf signatureCarrier = some c ∧
      (formSelector = "yaml".toList → c ≠ [] → (fromUtf8 c).isSome = true →
        decomposeImpl (attached a) formSelector none limits =
          ⟨"ok".toList, none, some p, some c⟩) ∧
      (formSelector = "protobuf".toList →
        ∀ mode ∈ ["strict".toList, "signature_strict".toList],
          decomposeImpl (attached a) formSelector (some mode) limits =
            ⟨"ok".toList, none, some p, some c⟩) := by
  obtain ⟨form, p, c, s, hform, hp, hc, hcompose, rfl, hpasses⟩ :=
    composeImpl_eq_success_iff.mp h
  refine ⟨p, c, hp, hc, ?_, ?_⟩
  · rintro rfl hne hutf8
    cases hform
    obtain ⟨hstream, hmarker, hs⟩ := composeYaml_eq_success_iff.mp hcompose
    have hdecompose : decomposeYaml s.artifact = .structural ⟨.ok, some p, some c, none⟩ :=
      decomposeYaml_eq_ok_iff.mpr ⟨⟨p, .lf, c, hstream,
        Format.Utf8.isSome_decode_iff.mp hutf8, hne, hmarker⟩, by rw [hs]; rfl, rfl, rfl⟩
    rw [decomposeImpl_attached rfl rfl hpasses, decompose_yaml, hdecompose]
    rfl
  · rintro rfl mode hmode
    cases hform
    rw [compose_protobuf] at hcompose
    obtain ⟨w, hw, hs⟩ := Option.map_eq_some_iff.mp hcompose
    cases hs
    have hdecompose : ∀ conformance, decomposeProto w conformance =
        .structural ⟨.ok, some p, some c, none⟩ := by
      intro conformance
      rw [decomposeProto, decomposeProtoOuter_of_composeProtoOuter hw conformance]
    simp only [List.mem_cons, List.not_mem_nil, or_false] at hmode
    rcases hmode with rfl | rfl
    · rw [decomposeImpl_attached rfl rfl hpasses, decompose_protobuf, hdecompose]
      rfl
    · rw [decomposeImpl_attached rfl rfl hpasses, decompose_protobuf, hdecompose]
      rfl

end

/-- The payload `k: v` and a carrier of one letter, under the default ceiling of 4 MiB. -/
theorem exports_compose_then_decompose_letter :
    ∃ p c, octetsOf (attached [0x6B, 0x3A, 0x20, 0x76, 0x0A]) = some p ∧
      octetsOf (attached [0x61]) = some c ∧
      ("yaml".toList = "yaml".toList → c ≠ [] → (fromUtf8 c).isSome = true →
        decomposeImpl (attached [0x6B, 0x3A, 0x20, 0x76, 0x0A, 0x2D, 0x2D, 0x2D, 0x0A, 0x61])
          "yaml".toList none (some ⟨some ⟨4194304, by decide⟩⟩) =
            ⟨"ok".toList, none, some p, some c⟩) ∧
      ("yaml".toList = "protobuf".toList →
        ∀ mode ∈ ["strict".toList, "signature_strict".toList],
          decomposeImpl (attached [0x6B, 0x3A, 0x20, 0x76, 0x0A, 0x2D, 0x2D, 0x2D, 0x0A, 0x61])
            "yaml".toList (some mode) (some ⟨some ⟨4194304, by decide⟩⟩) =
              ⟨"ok".toList, none, some p, some c⟩) := by
  have h : composeImpl Core.Reference.backend.buffa (attached [0x6B, 0x3A, 0x20, 0x76, 0x0A])
      (attached [0x61]) "yaml".toList (some ⟨some ⟨4194304, by decide⟩⟩) = some (.success
        [0x6B, 0x3A, 0x20, 0x76, 0x0A, 0x2D, 0x2D, 0x2D, 0x0A, 0x61]) := by
    decide +kernel
  exact exports_compose_then_decompose h

end Wasm
end YamlSigil
