/-
Signing from JavaScript.

The caller gives the octets of a private key, which are imported for one signature.  What
was signed under a policy is verified under the same policy, with the octets of the public
key.
-/
import YamlSigil.Signing.Limits
import YamlSigil.Wasm.Compose

namespace YamlSigil
namespace Wasm

open YamlSigil.Core Verification
open Signing (OutputForm SignInvocationError SignError SignOutcome SignSuccess SignRequest
  SigningKey SigningCrypto)

/-! ## Selectors and codes -/

def outputForm (value : Text) : Option OutputForm :=
  if value = "yaml".toList then some .yaml
  else if value = "protobuf".toList then some .protobuf
  else none

def signInvocationCode : SignInvocationError → Text
  | .invalidOrUnsupportedAlgorithm => "invalid_or_unsupported_algorithm".toList
  | .invalidAlgorithmParameters => "invalid_algorithm_parameters".toList
  | .invalidOrUnsupportedOutputForm => "invalid_or_unsupported_output_form".toList
  | .invalidKeyid => "invalid_keyid".toList

def signErrorCode : SignError → Text
  | .invalidPayloadBytes => "invalid_payload_bytes".toList
  | .payloadLineTerminatorRefusal => "payload_line_terminator_refusal".toList
  | .keyOperationFailure => "key_operation_failure".toList
  | .invalidOrUnsupportedAlgorithm => "invalid_or_unsupported_algorithm".toList
  | .yamlSerialize _ => "yaml_serialize".toList

def signedForm : OutputForm → ArtifactResourceForm
  | .yaml => .yaml
  | .protobuf => .protobuf

/-! ## Keys -/

/-- The libraries with the octets of their keys. -/
structure ExportCrypto extends SigningCrypto, KeyCrypto where
  ed25519FromSeed : Bytes → Ed25519SigningKey
  p256FromSlice : Bytes → Option P256SigningKey
  /-- `to_sec1_point(false)` -/
  p256ToSec1 : P256VerifyingKey → Bytes

/-- Keys accept what they sign, and are read back from their octets. -/
structure ExportCrypto.Lawful (C : ExportCrypto) : Prop where
  signing : C.toSigningCrypto.Lawful
  ed25519 : ∀ vk, (C.ed25519AsBytes vk).length = 32 ∧
    C.ed25519FromBytes (C.ed25519AsBytes vk) = some vk
  p256 : ∀ vk, (C.p256ToSec1 vk).length = 65 ∧ (C.p256ToSec1 vk).head? = some 0x04 ∧
    C.p256FromSec1Bytes (C.p256ToSec1 vk) = some vk

section
variable (C : ExportCrypto)

def importKey (keyBytes : Bytes) :
    AlgorithmId → Option (SigningKey C.Ed25519SigningKey C.P256SigningKey)
  | .ed25519 => if keyBytes.length ≠ 32 then none else some (.ed25519 (C.ed25519FromSeed keyBytes))
  | .ecdsaP256Sha256 =>
    if keyBytes.length ≠ 32 then none else (C.p256FromSlice keyBytes).map .ecdsaP256Sha256

/-- The octets of the public key that belongs to a signing key. -/
def publicKeyBytes : SigningKey C.Ed25519SigningKey C.P256SigningKey → Bytes
  | .ed25519 sk => C.ed25519AsBytes (C.ed25519PublicKey sk)
  | .ecdsaP256Sha256 sk => C.p256ToSec1 (C.p256PublicKey sk)

/-! ## Signing -/

structure SignResult where
  status : Text
  code : Option Text
  artifact : Option Bytes
  modifiedPayload : Option Bytes
deriving Repr, DecidableEq

namespace SignResult

def failure (error : OutputFailure) : SignResult where
  status := error.status
  code := some error.code
  artifact := none
  modifiedPayload := none

def invocation (code : Text) : SignResult where
  status := "invocation_error".toList
  code := some code
  artifact := none
  modifiedPayload := none

def success (s : SignSuccess) : SignResult where
  status := "success".toList
  code := none
  artifact := some s.artifact
  modifiedPayload := if s.modifiedPayload = [] then none else some s.modifiedPayload

def ofOutcome : SignOutcome → SignResult
  | .success s => .success s
  | .invocation error => .invocation (signInvocationCode error)
  | .signer error => ⟨"signer_error".toList, some (signErrorCode error), none, none⟩

end SignResult

/-- The length of a key identifier, checked early under a policy. -/
def keyidRefused (limits : Option ArtifactResourceLimits) (keyid : Option Text) : Bool :=
  limits.isSome && keyid.any fun value => value.isEmpty || (asBytes value).length > 1024

/-- The octets of the payload and of the private key. -/
def signInputs (payload signingKey : Uint8Array) (keyid : Option Text) (form : OutputForm)
    (limits : Option ArtifactResourceLimits) : Except SignResult (Bytes × Bytes) := do
  let signingKey ← (ByteInput.new signingKey).mapError fun error => .failure (.input error)
  if signingKey.length ≠ 32 then .error (.invocation "invalid_signing_key".toList)
  else if keyidRefused limits keyid = true then .error (.invocation "invalid_keyid".toList)
  else
    let inputs : Except Failure (Bytes × Bytes) := do
      let payload ← ByteInput.new payload
      limits.elim (.ok ()) fun limits =>
        withAdmittedOutput limits (signedForm form) [payload.length]
      let payload ← payload.toVec
      let keyBytes ← signingKey.toVec
      .ok (payload, keyBytes)
    inputs.mapError fun error => .failure (.input error)

variable (K : Backend) (draws : List C.Nonce)

def signOutcome (request : SignRequest C.Ed25519SigningKey C.P256SigningKey) :
    Option ArtifactResourceLimits → Run (Except OutputFailure SignOutcome)
  | some limits =>
    (Signing.signWithResourceLimits C.toSigningCrypto K draws request limits).map flattenEncoding
  | none => (Signing.sign C.toSigningCrypto K draws request).map .ok

def signImpl (payload : Uint8Array) (algorithmSelector : Text) (signingKey : Uint8Array)
    (keyid : Option Text) (appendMissingFinalNewline : Bool) (outputFormSelector : Text)
    (limits : Option ArtifactResourceLimits) : Run SignResult :=
  match algorithm algorithmSelector with
  | none => some (.invocation "invalid_or_unsupported_algorithm".toList)
  | some algorithm =>
    match outputForm outputFormSelector with
    | none => some (.invocation "invalid_or_unsupported_output_form".toList)
    | some outputForm =>
      match signInputs payload signingKey keyid outputForm limits with
      | .error refused => some refused
      | .ok (payload, keyBytes) =>
        match importKey C keyBytes algorithm with
        | none => some (.invocation "invalid_signing_key".toList)
        | some key =>
          let request : SignRequest C.Ed25519SigningKey C.P256SigningKey :=
            ⟨payload, algorithm, key, keyid, appendMissingFinalNewline, outputForm, []⟩
          (signOutcome C K draws request limits).map fun
            | .error error => .failure error
            | .ok outcome => .ofOutcome outcome

end

/-! ## What a policy admits -/

section
variable {C : ExportCrypto} {K : Backend} {draws : List C.Nonce}
  {limits : Option ArtifactResourceLimits}

section
variable {req : SignRequest C.Ed25519SigningKey C.P256SigningKey} {s : SignSuccess}

theorem signOutcome_eq_success_iff (hK : K.Lawful) :
    signOutcome C K draws req limits = some (.ok (.success s)) ↔
      Signing.sign C.toSigningCrypto K draws req = some (.success s) ∧
        Passes K.buffa limits (req.outputForm = .protobuf) s.artifact.length := by
  cases limits with
  | none =>
    have hmap : signOutcome C K draws req none = some (.ok (.success s)) ↔
        Signing.sign C.toSigningCrypto K draws req = some (.success s) :=
      map_eq_some_of_iff fun _ => iff_of_eq (Except.ok.injEq _ _)
    rw [hmap]
    exact ⟨fun h => ⟨h, fun _ hl => by cases hl⟩, fun h => h.1⟩
  | some l =>
    have hmap : signOutcome C K draws req (some l) = some (.ok (.success s)) ↔
        Signing.signWithResourceLimits C.toSigningCrypto K draws req l =
          some (.ok (.ok (.success s))) :=
      map_eq_some_of_iff fun _ => flattenEncoding_eq_ok_iff
    rw [hmap, Signing.signWithResourceLimits_eq, Signing.sign_eq,
      Signing.expectUnbounded_eq_success_iff]
    constructor
    · intro h
      have hunbounded := Signing.signingProgram_unbounded h
      exact ⟨hunbounded,
        ((success_iff_of_filters (Signing.signingProgram_filters hK l hunbounded)).mp h).2⟩
    · rintro ⟨h, hpasses⟩
      exact (success_iff_of_filters (Signing.signingProgram_filters hK l h)).mpr ⟨rfl, hpasses⟩

/-- What a success is made of. -/
theorem signed_of_sign (h : Signing.sign C.toSigningCrypto K draws req = some (.success s)) :
    ∃ prepared signature, Signing.validateInvocation req = .ok () ∧
      Signing.prepareSigningPayload req = .ok prepared ∧
      Signing.signDigest C.toSigningCrypto draws prepared.payload req.algorithm req.key =
        .ok signature ∧
      Signing.finishSigning K req prepared signature none = some (.ok (.success s)) := by
  rw [Signing.sign_eq, Signing.expectUnbounded_eq_success_iff] at h
  obtain ⟨prepared, signature, hadmitted, -, hsignature, hfinish⟩ := Signing.signed_of_success h
  exact ⟨prepared, signature, hadmitted.validated, hadmitted.prepared, hsignature, hfinish⟩

theorem length_le_of_sign (hK : K.Lawful)
    (h : Signing.sign C.toSigningCrypto K draws req = some (.success s)) :
    req.payload.length ≤ s.artifact.length := by
  obtain ⟨prepared, signature, -, hprepared, -, hfinish⟩ := signed_of_sign h
  have hprojected := (Signing.projectedLength_of_finished hK hprepared hfinish).1
  refine Nat.le_trans ?_ hprojected
  unfold Signing.projectedLength
  cases req.outputForm with
  | yaml =>
    show _ ≤ req.payload.length + _ + 4 + _
    omega
  | protobuf =>
    have := Transcription.le_lenFieldSize req.payload.length
    show _ ≤ _ + _
    omega

/-- A key identifier that the library takes is not refused early. -/
theorem keyidRefused_of_sign
    (h : Signing.sign C.toSigningCrypto K draws req = some (.success s)) :
    keyidRefused limits req.keyid = false := by
  obtain ⟨-, -, hvalid, -⟩ := signed_of_sign h
  unfold keyidRefused
  cases hkeyid : req.keyid with
  | none => simp
  | some keyid =>
    obtain ⟨hpos, hle⟩ := Signing.keyid_length_of_validated (by
      rw [Signing.validateInvocation] at hvalid
      obtain ⟨_, hparameters, -⟩ := bind_eq_ok_iff.mp hvalid
      exact hparameters) hkeyid
    have hne : keyid ≠ [] := by
      rintro rfl
      exact absurd hpos (by decide)
    have hempty : keyid.isEmpty = false := List.isEmpty_eq_false_iff.mpr hne
    rw [Option.any_some, hempty, Bool.false_or, decide_eq_false (Nat.not_lt.mpr hle),
      Bool.and_false]

end

theorem mapError_eq_ok_iff {ε ε' α : Type} {f : ε → ε'} {r : Except ε α} {a : α} :
    r.mapError f = .ok a ↔ r = .ok a := by
  cases r with
  | error e => exact ⟨fun h => (by cases h), fun h => (by cases h)⟩
  | ok a' => exact ⟨fun h => by cases h; rfl, fun h => by cases h; rfl⟩

theorem signInputs_eq_ok_iff {payload signingKey : Uint8Array} {keyid : Option Text}
    {form : OutputForm} {p k : Bytes} :
    signInputs payload signingKey keyid form limits = .ok (p, k) ↔
      octetsOf payload = some p ∧ octetsOf signingKey = some k ∧ k.length = 32 ∧
        keyidRefused limits keyid = false ∧ ∀ l ∈ limits, p.length ≤ l.ceiling := by
  constructor
  · intro h
    obtain ⟨key, hkey, h⟩ := bind_eq_ok_iff.mp h
    split_ifs at h with hlength hrefused
    obtain ⟨payload', hpayload, h⟩ := bind_eq_ok_iff.mp (mapError_eq_ok_iff.mp h)
    obtain ⟨_, hadmitted, h⟩ := bind_eq_ok_iff.mp h
    obtain ⟨p', hp, h⟩ := bind_eq_ok_iff.mp h
    obtain ⟨k', hk, h⟩ := bind_eq_ok_iff.mp h
    cases h
    have hkey := octetsOf_eq_some (mapError_eq_ok_iff.mp hkey) hk
    refine ⟨octetsOf_eq_some hpayload hp, hkey, ?_, Bool.not_eq_true _ ▸ hrefused, fun l hl => ?_⟩
    · rw [length_of_toVec hk]
      exact not_not.mp hlength
    · rw [Option.mem_def.mp hl] at hadmitted
      have hle := withAdmittedOutput_eq_ok_iff.mp hadmitted
      rw [length_of_toVec hp]
      simpa using hle
  · rintro ⟨hp, hk, hlength, hrefused, hle⟩
    obtain ⟨payload', rfl, hp⟩ := Option.bind_eq_some_iff.mp hp
    obtain ⟨key, rfl, hk⟩ := Option.bind_eq_some_iff.mp hk
    have hp := toVec_eq_ok_iff.mpr hp
    have hk := toVec_eq_ok_iff.mpr hk
    refine bind_eq_ok_iff.mpr ⟨key, rfl, ?_⟩
    rw [← length_of_toVec hk, if_neg (not_not.mpr hlength), if_neg (by rw [hrefused]; decide)]
    have hadmitted : limits.elim (.ok ()) (fun limits => withAdmittedOutput limits
        (signedForm form) [payload'.length]) = .ok () := by
      cases limits with
      | none => rfl
      | some l =>
        have hle := hle l rfl
        rw [length_of_toVec hp] at hle
        exact withAdmittedOutput_eq_ok_iff.mpr (by simpa using hle)
    exact mapError_eq_ok_iff.mpr (bind_eq_ok_iff.mpr ⟨payload', rfl, bind_eq_ok_iff.mpr
      ⟨(), hadmitted, bind_eq_ok_iff.mpr ⟨p, hp, bind_eq_ok_iff.mpr ⟨k, hk, rfl⟩⟩⟩⟩)

theorem SignResult.success_injective : Function.Injective SignResult.success := by
  intro s s' h
  obtain ⟨a, m⟩ := s
  obtain ⟨a', m'⟩ := s'
  have hartifact : some a = some a' := congrArg SignResult.artifact h
  have hmodified : (if m = [] then none else some m) = if m' = [] then none else some m' :=
    congrArg SignResult.modifiedPayload h
  cases hartifact
  split_ifs at hmodified with hm hm'
  · rw [hm, hm']
  · rw [Option.some.inj hmodified]

theorem signResult_ofOutcome_eq_success_iff {outcome : SignOutcome} {s : SignSuccess} :
    SignResult.ofOutcome outcome = .success s ↔ outcome = .success s := by
  constructor
  · intro h
    have hartifact := congrArg SignResult.artifact h
    cases outcome with
    | success s' => rw [SignResult.success_injective h]
    | invocation e => cases hartifact
    | signer e => cases hartifact
  · rintro rfl
    rfl

/-- The request that is put to the library. -/
structure Requests (C : ExportCrypto) (payload : Uint8Array) (algorithmSelector : Text)
    (signingKey : Uint8Array) (keyid : Option Text) (append : Bool) (outputFormSelector : Text)
    (req : SignRequest C.Ed25519SigningKey C.P256SigningKey) : Prop where
  algorithm : algorithm algorithmSelector = some req.algorithm
  outputForm : outputForm outputFormSelector = some req.outputForm
  payload : octetsOf payload = some req.payload
  key : ∃ keyBytes, octetsOf signingKey = some keyBytes ∧
    importKey C keyBytes req.algorithm = some req.key
  keyid : req.keyid = keyid
  append : req.appendMissingFinalNewline = append
  parameters : req.algorithmParameters = []

section
variable {payload signingKey : Uint8Array} {algorithmSelector outputFormSelector : Text}
  {keyid : Option Text} {append : Bool} {s : SignSuccess}

theorem length_of_importKey {keyBytes : Bytes} {algorithm : AlgorithmId}
    {key : SigningKey C.Ed25519SigningKey C.P256SigningKey}
    (h : importKey C keyBytes algorithm = some key) : keyBytes.length = 32 := by
  unfold importKey at h
  cases algorithm with
  | ed25519 =>
    simp only at h
    split_ifs at h with hlength
    exact not_not.mp hlength
  | ecdsaP256Sha256 =>
    simp only at h
    split_ifs at h with hlength
    exact not_not.mp hlength

theorem signResult_failure_ne_success (e : OutputFailure) : SignResult.failure e ≠ .success s := by
  intro h
  have hartifact := congrArg SignResult.artifact h
  cases hartifact

theorem artifact_of_mapError {r : Except Failure (Bytes × Bytes)} {refused : SignResult}
    (h : r.mapError (fun error => SignResult.failure (.input error)) = .error refused) :
    refused.artifact = none := by
  cases r with
  | error e =>
    cases h
    rfl
  | ok pair => cases h

theorem artifact_of_signInputs {form : OutputForm} {refused : SignResult}
    (h : signInputs payload signingKey keyid form limits = .error refused) :
    refused.artifact = none := by
  cases signingKey with
  | none =>
    cases h
    rfl
  | some key =>
    change (if key.length ≠ 32 then _ else _) = _ at h
    split_ifs at h with hlength hrefused
    · cases h
      rfl
    · cases h
      rfl
    · exact artifact_of_mapError h

/-- A success is a success of the library, on what was asked for, that passes. -/
theorem signImpl_eq_success_iff (hK : K.Lawful) :
    signImpl C K draws payload algorithmSelector signingKey keyid append outputFormSelector
        limits = some (.success s) ↔
      ∃ req, Requests C payload algorithmSelector signingKey keyid append outputFormSelector req ∧
        Signing.sign C.toSigningCrypto K draws req = some (.success s) ∧
        Passes K.buffa limits (req.outputForm = .protobuf) s.artifact.length := by
  constructor
  · intro h
    unfold signImpl at h
    cases halgorithm : algorithm algorithmSelector with
    | none =>
      rw [halgorithm] at h
      have hartifact := congrArg SignResult.artifact (Option.some.inj h)
      cases hartifact
    | some alg =>
      rw [halgorithm] at h
      simp only at h
      cases hform : outputForm outputFormSelector with
      | none =>
        rw [hform] at h
        have hartifact := congrArg SignResult.artifact (Option.some.inj h)
        cases hartifact
      | some form =>
        rw [hform] at h
        simp only at h
        cases hinputs : signInputs payload signingKey keyid form limits with
        | error r =>
          rw [hinputs] at h
          have hartifact := congrArg SignResult.artifact (Option.some.inj h)
          rw [artifact_of_signInputs hinputs] at hartifact
          cases hartifact
        | ok pair =>
          obtain ⟨p, keyBytes⟩ := pair
          obtain ⟨hp, hk, -⟩ := signInputs_eq_ok_iff.mp hinputs
          rw [hinputs] at h
          simp only at h
          cases hkey : importKey C keyBytes alg with
          | none =>
            rw [hkey] at h
            have hartifact := congrArg SignResult.artifact (Option.some.inj h)
            cases hartifact
          | some key =>
            rw [hkey] at h
            obtain ⟨outcome, houtcome, h⟩ := Option.map_eq_some_iff.mp h
            cases outcome with
            | error e => exact (signResult_failure_ne_success e h).elim
            | ok outcome =>
              rw [signResult_ofOutcome_eq_success_iff.mp h] at houtcome
              obtain ⟨hsign, hpasses⟩ := (signOutcome_eq_success_iff hK).mp houtcome
              exact ⟨_, ⟨halgorithm, hform, hp, ⟨keyBytes, hk, hkey⟩, rfl, rfl, rfl⟩, hsign,
                hpasses⟩
  · rintro ⟨req, hreq, hsign, hpasses⟩
    obtain ⟨p, alg, key, keyid', append', form, parameters⟩ := req
    obtain ⟨halgorithm, hform, hp, ⟨keyBytes, hk, hkey⟩, hkeyid, happend, hparameters⟩ := hreq
    subst hkeyid happend hparameters
    have hlength := length_le_of_sign hK hsign
    have hinputs : signInputs payload signingKey keyid' form limits = .ok (p, keyBytes) :=
      signInputs_eq_ok_iff.mpr ⟨hp, hk, length_of_importKey hkey, keyidRefused_of_sign hsign,
        fun l hl => Nat.le_trans hlength (hpasses l hl).1⟩
    unfold signImpl
    rw [halgorithm, hform]
    simp only [hinputs, hkey]
    rw [(signOutcome_eq_success_iff hK).mpr ⟨hsign, hpasses⟩]
    rfl

/-! ## Signing and verifying -/

theorem enables_verifierOptions (algorithm : AlgorithmId) :
    (verifierOptions algorithm).enables algorithm = true := by
  cases algorithm <;> rfl

theorem algorithmName_of_algorithm {selector : Text} {alg : AlgorithmId}
    (h : algorithm selector = some alg) : algorithmName alg = selector := by
  unfold algorithm at h
  split_ifs at h with hed hp256
  · cases h
    exact hed.symm
  · cases h
    exact hp256.symm

theorem artifactForm_of_outputForm {selector : Text} {form : OutputForm}
    (h : outputForm selector = some form) : artifactForm selector = some form.artifactForm := by
  unfold outputForm at h
  unfold artifactForm
  split_ifs at h with hyaml hproto
  · cases h
    exact if_pos hyaml
  · cases h
    rw [if_neg hyaml, if_pos hproto]
    rfl

theorem resolveP256VerifyingKey_of_eq {bytes : Bytes} {vk : C.P256VerifyingKey}
    (hlength : bytes.length = 65) (hhead : bytes.head? = some 0x04)
    (hkey : C.p256FromSec1Bytes bytes = some vk) :
    resolveP256VerifyingKey C.toKeyCrypto bytes = .ok vk := by
  rw [resolveP256VerifyingKey, if_neg]
  · simp only [hkey]
  · rintro (h | h)
    · exact h hlength
    · exact h hhead

/-- The octets of the public key resolve to the public key, in its slot. -/
theorem resolveKeys_publicKeyBytes (hC : C.Lawful)
    {key : SigningKey C.Ed25519SigningKey C.P256SigningKey} {alg : AlgorithmId} {keyBytes : Bytes}
    (hkey : importKey C keyBytes alg = some key) :
    (publicKeyBytes C key).length = expectedKeyLength alg ∧
      ∃ keys : PublicKeys C.Ed25519VerifyingKey C.P256VerifyingKey,
        resolveKeys C.toKeyCrypto (publicKeyBytes C key) alg = .ok keys ∧
          Signing.HoldsPublicKey keys key := by
  unfold importKey at hkey
  cases alg with
  | ed25519 =>
    simp only at hkey
    split_ifs at hkey
    cases hkey
    obtain ⟨hlength, hbytes⟩ := hC.ed25519 (C.ed25519PublicKey (C.ed25519FromSeed keyBytes))
    obtain ⟨_, point, _, hequation⟩ := hC.signing.ed25519 (C.ed25519FromSeed keyBytes) []
    have hresolve := (resolveEd25519VerifyingKey_eq_ok_iff (C := C.toKeyCrypto)).mpr
      ⟨hlength, ⟨point, hequation.a_canonical, hequation.a_order⟩, hbytes⟩
    exact ⟨hlength, _, congrArg (Except.map _) hresolve, rfl⟩
  | ecdsaP256Sha256 =>
    simp only at hkey
    split_ifs at hkey
    obtain ⟨sk, -, rfl⟩ := Option.map_eq_some_iff.mp hkey
    obtain ⟨hlength, hhead, hbytes⟩ := hC.p256 (C.p256PublicKey sk)
    have hresolve := resolveP256VerifyingKey_of_eq hlength hhead hbytes
    exact ⟨hlength, _, congrArg (Except.map _) hresolve, rfl⟩

/-- The verifier accepts what was signed, under any key that it holds as the public key. -/
theorem verify_of_sign (hC : C.Lawful) (hK : K.Lawful)
    {req : SignRequest C.Ed25519SigningKey C.P256SigningKey}
    (h : Signing.sign C.toSigningCrypto K draws req = some (.success s))
    {keys : PublicKeys C.Ed25519VerifyingKey C.P256VerifyingKey}
    (hkeys : Signing.HoldsPublicKey keys req.key) :
    verify C.toCrypto K s.artifact req.outputForm.artifactForm keys
      (verifierOptions req.algorithm) =
        some (.ok (.verified (Signing.signedPayload req.payload s.modifiedPayload)
          req.algorithm)) := by
  obtain ⟨prepared, signature, hvalid, hprepared, hdigest, hfinish⟩ := signed_of_sign h
  obtain ⟨hemits, hmodified⟩ := Signing.finishSigning_spec hK hfinish
  have hpayload := (Signing.prepareSigningPayload_spec hprepared).2
  rw [← hmodified] at hpayload
  rw [← hpayload] at hemits hdigest
  have haccepted := Signing.accepted_of_signDigest hC.signing hdigest hkeys
    (enables_verifierOptions req.algorithm)
  exact (Signing.verify_of_accepted hK hvalid hemits haccepted).trans (if_neg (fun h => h rfl))

/-- On resolved keys an artifact that passes is answered as the verifier answers it. -/
theorem verifyImpl_attached {J : JsonSchema} (hB : K.base64.Lawful) (hJ : J.Implements)
    (gate : Bool) {a keyBytes : Bytes} {formSelector algorithmSelector : Text}
    {form : ArtifactForm} {alg : AlgorithmId} (hform : artifactForm formSelector = some form)
    (halg : algorithm algorithmSelector = some alg)
    (hlength : keyBytes.length = expectedKeyLength alg)
    {keys : PublicKeys C.Ed25519VerifyingKey C.P256VerifyingKey}
    (hkeys : resolveKeys C.toKeyCrypto keyBytes alg = .ok keys)
    {state : VerifierState}
    (hverify : verify C.toCrypto K a form keys (verifierOptions alg) = some (.ok state))
    (hadmitted : ∀ l ∈ limits, ¬l.Exceeded a.length) :
    verifyImpl K J C.toKeyCrypto gate (attached a) formSelector algorithmSelector
      (attached keyBytes) limits = some (resultOf (.ok state)) := by
  have hungated : verifyImpl K J C.toKeyCrypto gate (attached a) formSelector algorithmSelector
      (attached keyBytes) limits = verifyImpl K J C.toKeyCrypto false (attached a) formSelector
        algorithmSelector (attached keyBytes) limits := by
    cases gate with
    | false => rfl
    | true => exact verifyImpl_gate hB hJ C.toKeyCrypto _ _ _ _ _
  have hkeyLength : ¬(keyBytes.length ≠ expectedKeyLength alg) := not_not.mpr hlength
  rw [hungated]
  unfold verifyImpl verifyResolved
  cases limits with
  | none =>
    simp only [attached, ByteInput.new, Option.elim_none, hform, halg, if_neg hkeyLength,
      ByteInput.toVec, hkeys, Bool.false_and, Bool.false_eq_true, if_false, hverify,
      Option.bind_eq_bind, Option.bind_some]
  | some l =>
    have hnot := hadmitted l rfl
    simp only [attached, ByteInput.new, Option.elim_some, withAdmittedInput_of_not_exceeded hnot,
      hform, halg, if_neg hkeyLength, ByteInput.toVec, hkeys, Bool.false_and,
      Bool.false_eq_true, if_false, verifyWithResourceLimits,
      ArtifactResourceLimits.checkInputSize_of_not_exceeded (resourceForm form) hnot, hverify,
      Option.map_some, Option.bind_eq_bind, Option.bind_some]

/-- Main result on signing from JavaScript: what was signed under a policy verifies under the
same policy, with and without the schema gate, given the octets of the public key, and the
payload is the one that was signed. -/
theorem exports_sign_then_verify {J : JsonSchema} (hC : C.Lawful) (hK : K.Lawful)
    (hJ : J.Implements)
    (h : signImpl C K draws payload algorithmSelector signingKey keyid append outputFormSelector
      limits = some (.success s)) :
    ∃ p keyBytes alg key, octetsOf payload = some p ∧ octetsOf signingKey = some keyBytes ∧
      algorithm algorithmSelector = some alg ∧ importKey C keyBytes alg = some key ∧
      ∀ gate, verifyImpl K J C.toKeyCrypto gate (attached s.artifact) outputFormSelector
        algorithmSelector (attached (publicKeyBytes C key)) limits =
          some ⟨"verified".toList, none,
            some (if s.modifiedPayload ≠ [] then s.modifiedPayload else p),
            some algorithmSelector⟩ := by
  obtain ⟨req, hreq, hsign, hpasses⟩ := (signImpl_eq_success_iff hK).mp h
  obtain ⟨keyBytes, hkeyBytes, hkey⟩ := hreq.key
  refine ⟨req.payload, keyBytes, req.algorithm, req.key, hreq.payload, hkeyBytes, hreq.algorithm,
    hkey, fun gate => ?_⟩
  obtain ⟨hlength, keys, hkeys, hholds⟩ := resolveKeys_publicKeyBytes hC hkey
  rw [verifyImpl_attached hK.base64 hJ gate (artifactForm_of_outputForm hreq.outputForm)
    hreq.algorithm hlength hkeys (verify_of_sign hC hK hsign hholds)
    fun l hl => ArtifactResourceLimits.not_exceeded_of_le (hpasses l hl).1]
  rw [← algorithmName_of_algorithm hreq.algorithm]
  rfl

theorem protobuf_iff_of_outputForm {selector : Text} {form : OutputForm}
    (h : outputForm selector = some form) : form = .protobuf ↔ selector = "protobuf".toList := by
  unfold outputForm at h
  split_ifs at h with hyaml hproto
  · cases h
    rw [hyaml]
    exact ⟨fun h => (by cases h), fun h => absurd h (by decide)⟩
  · cases h
    exact ⟨fun _ => hproto, fun _ => rfl⟩

/-- Main result on policies of signing: under one, exactly those artifacts are signed that are
signed without one and pass it. -/
theorem sign_policy_exact (hK : K.Lawful) (l : ArtifactResourceLimits) :
    signImpl C K draws payload algorithmSelector signingKey keyid append outputFormSelector
        (some l) = some (.success s) ↔
      signImpl C K draws payload algorithmSelector signingKey keyid append outputFormSelector
          none = some (.success s) ∧
        Passes K.buffa (some l) (outputFormSelector = "protobuf".toList) s.artifact.length := by
  rw [signImpl_eq_success_iff hK, signImpl_eq_success_iff hK]
  constructor
  · intro h
    obtain ⟨req, hreq, hsign, hpasses⟩ := h
    rw [protobuf_iff_of_outputForm hreq.outputForm] at hpasses
    exact ⟨⟨req, hreq, hsign, fun _ hl => by cases hl⟩, hpasses⟩
  · intro h
    obtain ⟨⟨req, hreq, hsign, -⟩, hpasses⟩ := h
    rw [← protobuf_iff_of_outputForm hreq.outputForm] at hpasses
    exact ⟨req, hreq, hsign, hpasses⟩

end

end

/-! ## One signature -/

namespace Reference

def p256Octets : Bytes := 0x04 :: List.replicate 64 0

/-- The stand-in libraries with the octets of their one key of each algorithm. -/
def exportCrypto : ExportCrypto where
  toSigningCrypto := Signing.Reference.crypto
  ed25519FromBytes bytes := if bytes = Verification.rfc8032Test1PublicKey then some () else none
  p256FromSec1Bytes bytes := if bytes = p256Octets then some () else none
  ed25519FromSeed _ := ()
  p256FromSlice _ := none
  p256ToSec1 _ := p256Octets

theorem exportCrypto_lawful : exportCrypto.Lawful where
  signing := Signing.Reference.crypto_lawful
  ed25519 _ := by
    refine ⟨rfl, ?_⟩
    show (if Verification.rfc8032Test1PublicKey = Verification.rfc8032Test1PublicKey then
      some () else none) = some ()
    exact if_pos rfl
  p256 _ := by
    refine ⟨rfl, rfl, ?_⟩
    show (if p256Octets = p256Octets then some () else none) = some ()
    exact if_pos rfl

/-- The seed of the first test vector. -/
def rfc8032Seed : Bytes := [
  0x9D, 0x61, 0xB1, 0x9D, 0xEF, 0xFD, 0x5A, 0x60, 0xBA, 0x84, 0x4A, 0xF4, 0x92, 0xEC, 0x2C, 0xC4,
  0x44, 0x49, 0xC5, 0x69, 0x7B, 0x32, 0x69, 0x19, 0x70, 0x3B, 0xAC, 0x03, 0x1C, 0xAE, 0x7F, 0x60]

/-- The empty payload, signed in the protobuf form under a ceiling of its 72 octets. -/
theorem signImpl_rfc8032 (limits : Option ArtifactResourceLimits)
    (hlimits : limits = none ∨ limits = some ⟨some ⟨72, by decide⟩⟩) :
    signImpl exportCrypto Core.Reference.backend [] (attached []) ed25519Name
      (attached rfc8032Seed) none false "protobuf".toList limits =
        some (.success ⟨Verification.Reference.rfc8032Wire, []⟩) := by
  rcases hlimits with rfl | rfl
  · decide +kernel
  · decide +kernel

end Reference

theorem exports_sign_then_verify_rfc8032 :
    ∃ p keyBytes alg key, octetsOf (attached []) = some p ∧
      octetsOf (attached Reference.rfc8032Seed) = some keyBytes ∧
      algorithm ed25519Name = some alg ∧
      importKey Reference.exportCrypto keyBytes alg = some key ∧
      ∀ gate, verifyImpl Core.Reference.backend Core.Reference.jsonSchema
        Reference.exportCrypto.toKeyCrypto gate (attached Verification.Reference.rfc8032Wire)
        "protobuf".toList ed25519Name (attached (publicKeyBytes Reference.exportCrypto key))
        (some ⟨some ⟨72, by decide⟩⟩) =
          some ⟨"verified".toList, none, some (if ([] : Bytes) ≠ [] then [] else p),
            some ed25519Name⟩ :=
  exports_sign_then_verify Reference.exportCrypto_lawful Core.Reference.backend_lawful
    Core.Reference.jsonSchema_implements (Reference.signImpl_rfc8032 _ (.inr rfl))

theorem sign_policy_exact_rfc8032 :
    signImpl Reference.exportCrypto Core.Reference.backend [] (attached []) ed25519Name
        (attached Reference.rfc8032Seed) none false "protobuf".toList
        (some ⟨some ⟨72, by decide⟩⟩) =
          some (.success ⟨Verification.Reference.rfc8032Wire, []⟩) ↔
      signImpl Reference.exportCrypto Core.Reference.backend [] (attached []) ed25519Name
        (attached Reference.rfc8032Seed) none false "protobuf".toList none =
          some (.success ⟨Verification.Reference.rfc8032Wire, []⟩) ∧
        Passes Core.Reference.backend.buffa (some ⟨some ⟨72, by decide⟩⟩)
          ("protobuf".toList = "protobuf".toList) Verification.Reference.rfc8032Wire.length :=
  sign_policy_exact Core.Reference.backend_lawful _

end Wasm
end YamlSigil
