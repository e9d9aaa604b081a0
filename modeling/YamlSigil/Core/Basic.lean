/-
Octets, texts, panics, algorithm identifiers and errors.

Byte vectors are lists of octets and strings are lists of Unicode scalar values;
`as_bytes` and `from_utf8` are the UTF-8 maps between them.  Lengths and indices
are natural numbers: `usize` has 64 bits and no slice is longer than `2 ^ 63 - 1`
octets, so an index into a slice never wraps.
-/
import YamlSigil.Format.Utf8

namespace YamlSigil
namespace Core

open Format

abbrev Bytes := List UInt8

abbrev Text := List Char

abbrev asBytes (t : Text) : Bytes := Utf8.encode t

theorem asBytes_append (s t : Text) : asBytes (s ++ t) = asBytes s ++ asBytes t :=
  Utf8.encode_append s t

theorem asBytes_cons (c : Char) (t : Text) : asBytes (c :: t) = asBytes [c] ++ asBytes t :=
  Utf8.encode_append [c] t

/-- `std::str::from_utf8`. -/
abbrev fromUtf8 (b : Bytes) : Option Text := Utf8.decode b

theorem fromUtf8_eq_some_iff {b : Bytes} {t : Text} : fromUtf8 b = some t ↔ b = asBytes t :=
  Utf8.decode_eq_some_iff

/-- A computation that can panic: `none` is the panic. -/
abbrev Run (α : Type) := Option α

/-- `Option::expect`: an absent value is a panic. -/
def expect {α : Type} (x : Option α) : Run α := x

/-- `Result::expect`: an error is a panic. -/
def expectOk {ε α : Type} : Except ε α → Run α
  | .ok a => some a
  | .error _ => none

@[simp] theorem expect_some {α : Type} (a : α) : expect (some a) = some a := rfl

@[simp] theorem expectOk_ok {ε α : Type} (a : α) : expectOk (Except.ok a : Except ε α) = some a :=
  rfl

theorem expectOk_eq_some_iff {ε α : Type} {x : Except ε α} {a : α} :
    expectOk x = some a ↔ x = .ok a := by
  cases x <;> simp [expectOk]

/-- A half-open index range. -/
structure Range where
  start : Nat
  stop : Nat
deriving Repr, DecidableEq

/-- The octets `bytes[start..stop]`. -/
def slice (bytes : Bytes) (r : Range) : Bytes := (bytes.take r.stop).drop r.start

theorem slice_prefix (p s : Bytes) : slice (p ++ s) ⟨0, p.length⟩ = p := by
  simp [slice]

theorem slice_suffix (p s : Bytes) {stop : Nat} (h : stop = (p ++ s).length) :
    slice (p ++ s) ⟨p.length, stop⟩ = s := by
  rw [slice, h, List.take_length, List.drop_left]

/-- A UTF-8 byte order mark in front. -/
def bomAtZero (bytes : Bytes) : Bool :=
  3 ≤ bytes.length && bytes[0]? == some 0xEF && bytes[1]? == some 0xBB && bytes[2]? == some 0xBF

theorem bomAtZero_iff {bytes : Bytes} :
    bomAtZero bytes = true ↔ [0xEF, 0xBB, 0xBF] <+: bytes := by
  match bytes with
  | [] => simp [bomAtZero]
  | [a] => simp [bomAtZero]
  | [a, b] => simp [bomAtZero]
  | a :: b :: c :: t =>
    simp only [List.cons_prefix_cons, List.nil_prefix, and_true]
    constructor
    · intro h
      simp only [bomAtZero, Bool.and_eq_true, beq_iff_eq] at h
      obtain ⟨⟨⟨-, ha⟩, hb⟩, hc⟩ := h
      exact ⟨(Option.some.inj ha).symm, (Option.some.inj hb).symm, (Option.some.inj hc).symm⟩
    · intro h
      rcases h with ⟨rfl, rfl, rfl⟩
      simp [bomAtZero]

/-! ## Algorithm identifiers -/

inductive AlgorithmId where
  | ed25519
  | ecdsaP256Sha256
deriving Repr, DecidableEq

namespace AlgorithmId

def asYamlStr : AlgorithmId → Text
  | .ed25519 => "ED25519_PUREEDDSA_RAW_RS64_CANONICAL".toList
  | .ecdsaP256Sha256 => "ECDSA_SECP256R1_SHA256_RAW_RS64".toList

def fromYamlStr (s : Text) : Option AlgorithmId :=
  if s = asYamlStr .ed25519 then some .ed25519
  else if s = asYamlStr .ecdsaP256Sha256 then some .ecdsaP256Sha256
  else none

def fromI32 (n : Int32) : Option AlgorithmId :=
  if n = 1 then some .ed25519
  else if n = 2 then some .ecdsaP256Sha256
  else none

/-- The enum number of a recognized algorithm. -/
def wireValue : AlgorithmId → Int32
  | .ed25519 => 1
  | .ecdsaP256Sha256 => 2

theorem fromYamlStr_asYamlStr (a : AlgorithmId) : fromYamlStr a.asYamlStr = some a := by
  cases a <;> decide

theorem asYamlStr_of_fromYamlStr {s : Text} {a : AlgorithmId} (h : fromYamlStr s = some a) :
    s = a.asYamlStr := by
  rw [fromYamlStr] at h
  split at h
  · next hs =>
    cases h
    exact hs
  · split at h
    · next hs =>
      cases h
      exact hs
    · cases h

theorem fromI32_wireValue (a : AlgorithmId) : fromI32 a.wireValue = some a := by
  cases a <;> decide

theorem wireValue_of_fromI32 {n : Int32} {a : AlgorithmId} (h : fromI32 n = some a) :
    n = a.wireValue := by
  rw [fromI32] at h
  split at h
  · next hn =>
    cases h
    exact hn
  · split at h
    · next hn =>
      cases h
      exact hn
    · cases h

end AlgorithmId

/-- The `schema:` value of v1alpha1 signature documents. -/
def schemaV1alpha1 : Text := "YamlSigilSignature.v1alpha1".toList

/-! ## Errors -/

inductive CoreError where
  | invalidUtf8
  | protobufDecode (detail : Text)
  | signatureYaml (detail : Text)
  | invalidBase64
  | schemaMismatch
  | emptySignature
deriving Repr, DecidableEq

/-- The `Display` text. -/
def CoreError.toText : CoreError → Text
  | .invalidUtf8 => "invalid UTF-8 in artifact".toList
  | .protobufDecode detail => "protobuf decode error: ".toList ++ detail
  | .signatureYaml detail => "YAML signature document parse error: ".toList ++ detail
  | .invalidBase64 => "invalid base64 in signature field".toList
  | .schemaMismatch => "signature document schema mismatch".toList
  | .emptySignature => "empty decoded signature octets".toList

/-! ## Steps that may fail -/

/-- What a sequence comes to, its first step comes to something. -/
theorem bind_eq_ok_iff {ε α β : Type} {x : Except ε α} {f : α → Except ε β} {b : β} :
    (x >>= f) = .ok b ↔ ∃ a, x = .ok a ∧ f a = .ok b := by
  cases x with
  | error e =>
    constructor
    · intro h
      cases h
    · rintro ⟨_, h, _⟩
      cases h
  | ok a =>
    constructor
    · intro h
      exact ⟨a, rfl, h⟩
    · rintro ⟨_, h, hf⟩
      cases h
      exact hf

end Core
end YamlSigil
