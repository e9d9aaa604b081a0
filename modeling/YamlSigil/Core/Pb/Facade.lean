/-
Borrowed messages, and the encoding of every facade message.

A borrowed message is written field by field as the owned message with the same
fields is.  The main result is about any of the four message types: the dry run
counts what is emitted, emission appends, the policies admit by the number of
octets emitted, and a failure changes nothing.
-/
import YamlSigil.Core.Pb.Bounded

namespace YamlSigil
namespace Core
namespace Pb

open Format
open FacadeEncode (writeFacadeWire)

/-! ## Borrowed messages

The generated views hold the fields of the generated messages, borrowed from
the input. -/

inductive SignatureRefInner where
  | direct (inner : GeneratedYamlSigilSignature)
  | nested (inner : GeneratedYamlSigilSignature)
deriving Repr, DecidableEq

structure YamlSigilSignatureRef where
  inner : SignatureRefInner
deriving Repr, DecidableEq

def YamlSigilSignatureRef.generated (m : YamlSigilSignatureRef) : GeneratedYamlSigilSignature :=
  match m.inner with
  | .direct inner => inner
  | .nested inner => inner

structure SignedYamlArtifactRef where
  inner : GeneratedSignedYamlArtifact
deriving Repr, DecidableEq

def SignedYamlArtifactRef.signature (m : SignedYamlArtifactRef) : Option YamlSigilSignatureRef :=
  m.inner.signature.map fun inner => ⟨.nested inner⟩

instance : FacadeEncode YamlSigilSignatureRef where
  writeFacadeWire m destination :=
    let generated := m.generated
    let algorithmWireValue := generated.alg
    let destination :=
      if algorithmWireValue ≠ 0 then
        pushVarint (pushTag destination 1 0) algorithmWireValue.toInt64.toUInt64
      else destination
    let afterKeyid :=
      match generated.keyid with
      | some keyid => pushLenField destination 2 (asBytes keyid)
      | none => (.ok (), destination)
    let afterSignature := afterKeyid.andThen fun destination =>
      if generated.signature ≠ [] then pushLenField destination 3 generated.signature
      else (.ok (), destination)
    afterSignature.andThen fun destination => (.ok (), generated.unknownFields.writeTo destination)

instance : FacadeEncode SignedYamlArtifactRef where
  writeFacadeWire m destination :=
    let afterPayload :=
      if m.inner.payload ≠ [] then pushLenField destination 1 m.inner.payload
      else (.ok (), destination)
    let afterSignature := afterPayload.andThen fun destination =>
      match m.signature with
      | none => (.ok (), destination)
      | some signature =>
        match rawFacadeEncodedLen signature with
        | .error e => (.error e, destination)
        | .ok signatureLen =>
          writeFacadeWire signature
            (pushVarint (pushTag destination 2 2) (UInt64.ofNat signatureLen))
    afterSignature.andThen fun destination => (.ok (), m.inner.unknownFields.writeTo destination)

/-- The owned message with the same fields. -/
def YamlSigilSignatureRef.owned (m : YamlSigilSignatureRef) : YamlSigilSignature :=
  .fromGenerated m.generated

def SignedYamlArtifactRef.owned (m : SignedYamlArtifactRef) : SignedYamlArtifact :=
  .fromGenerated m.inner

section
variable {σ : Type} [EncodeSink σ]

theorem writeFacadeWire_signatureRef (m : YamlSigilSignatureRef) (d : σ) :
    writeFacadeWire m d = writeFacadeWire m.owned d := rfl

theorem writeFacadeWire_artifactRef (m : SignedYamlArtifactRef) (d : σ) :
    writeFacadeWire m d = writeFacadeWire m.owned d := by
  obtain ⟨payload, signature, unknown⟩ := m
  cases signature with
  | none => rfl
  | some inner => rfl

end

instance : LawfulFacade YamlSigilSignatureRef where
  octets m := m.owned.octets
  Fits m := m.owned.Fits
  writes := by
    intro σ _ R m d o hR hfit hd
    rw [writeFacadeWire_signatureRef]
    exact LawfulFacade.writes hR (a := m.owned) hfit hd
  fails := by
    intro σ _ m d hfit
    rw [writeFacadeWire_signatureRef]
    exact LawfulFacade.fails (a := m.owned) hfit
  fits_of_lt := fun {m} h => LawfulFacade.fits_of_lt (a := m.owned) h

instance : LawfulFacade SignedYamlArtifactRef where
  octets m := m.owned.octets
  Fits m := m.owned.Fits
  writes := by
    intro σ _ R m d o hR hfit hd
    rw [writeFacadeWire_artifactRef]
    exact LawfulFacade.writes hR (a := m.owned) hfit hd
  fails := by
    intro σ _ m d hfit
    rw [writeFacadeWire_artifactRef]
    exact LawfulFacade.fails (a := m.owned) hfit
  fits_of_lt := fun {m} h => LawfulFacade.fits_of_lt (a := m.owned) h

/-! ## Every facade message -/

inductive FacadeMessage where
  | signature (m : YamlSigilSignature)
  | artifact (m : SignedYamlArtifact)
  | signatureRef (m : YamlSigilSignatureRef)
  | artifactRef (m : SignedYamlArtifactRef)
deriving Repr, DecidableEq

namespace FacadeMessage

instance : FacadeEncode FacadeMessage where
  writeFacadeWire m destination :=
    match m with
    | .signature m => writeFacadeWire m destination
    | .artifact m => writeFacadeWire m destination
    | .signatureRef m => writeFacadeWire m destination
    | .artifactRef m => writeFacadeWire m destination

/-- The octets of the message. -/
def octets : FacadeMessage → Bytes
  | .signature m => m.octets
  | .artifact m => m.octets
  | .signatureRef m => m.owned.octets
  | .artifactRef m => m.owned.octets

def Fits : FacadeMessage → Prop
  | .signature m => m.Fits
  | .artifact m => m.Fits
  | .signatureRef m => m.owned.Fits
  | .artifactRef m => m.owned.Fits

instance : LawfulFacade FacadeMessage where
  octets := octets
  Fits := Fits
  writes := by
    intro σ _ R m d o hR hfit hd
    cases m with
    | signature m => exact LawfulFacade.writes hR (a := m) hfit hd
    | artifact m => exact LawfulFacade.writes hR (a := m) hfit hd
    | signatureRef m => exact LawfulFacade.writes hR (a := m) hfit hd
    | artifactRef m => exact LawfulFacade.writes hR (a := m) hfit hd
  fails := by
    intro σ _ m d hfit
    cases m with
    | signature m => exact LawfulFacade.fails (a := m) hfit
    | artifact m => exact LawfulFacade.fails (a := m) hfit
    | signatureRef m => exact LawfulFacade.fails (a := m) hfit
    | artifactRef m => exact LawfulFacade.fails (a := m) hfit
  fits_of_lt := by
    intro m h
    cases m with
    | signature m => exact LawfulFacade.fits_of_lt (a := m) h
    | artifact m => exact LawfulFacade.fits_of_lt (a := m) h
    | signatureRef m => exact LawfulFacade.fits_of_lt (a := m) h
    | artifactRef m => exact LawfulFacade.fits_of_lt (a := m) h

variable (B : Buffa) (m : FacadeMessage)

def encodedLen : Except EncodeErrorKind Nat := facadeEncodedLen B m

def encodeToVec : Except EncodeErrorKind Bytes := encodeFacadeToVec B m

def encodeInto (destination : Bytes) : Except EncodeErrorKind Unit × Bytes :=
  encodeFacadeInto B m destination

def encodeToVecWithResourceLimits (limits : ArtifactResourceLimits) :
    Except ArtifactResourceError (Except EncodeErrorKind Bytes) :=
  encodeFacadeToVecWithResourceLimits B m limits

def encodeIntoWithResourceLimits (destination : Bytes) (limits : ArtifactResourceLimits) :
    Except ArtifactResourceError (Except EncodeErrorKind Unit) × Bytes :=
  encodeFacadeIntoWithResourceLimits B m destination limits

/-- Main result on encoding.  The octets of a message decide every encoder: they
are what is emitted, their number is what is counted and admitted, and an encoder
that returns an error has not changed its destination. -/
theorem encoders_exact (destination : Bytes) (limits : ArtifactResourceLimits) :
    (∀ n, m.encodedLen B = .ok n ↔ ∃ b, m.encodeToVec B = .ok b ∧ b.length = n) ∧
    (∀ b, m.encodeToVec B = .ok b ↔ b = m.octets ∧ b.length ≤ B.maxMessageBytes.toNat) ∧
    (∀ b, m.encodeToVec B = .ok b →
      m.encodeInto B destination = (.ok (), destination ++ b)) ∧
    (∀ e, m.encodeToVec B = .error e → m.encodeInto B destination = (.error e, destination)) ∧
    Admission B limits m.octets.length m.octets (m.encodeToVecWithResourceLimits B limits) ∧
    Admission B limits m.octets.length ()
      (m.encodeIntoWithResourceLimits B destination limits).1 ∧
    (m.encodeIntoWithResourceLimits B destination limits).2 =
      if (m.encodeIntoWithResourceLimits B destination limits).1 = .ok (.ok ()) then
        destination ++ m.octets
      else destination := by
  have hvec : ∀ b, m.encodeToVec B = .ok b ↔ b = m.octets ∧ b.length ≤ B.maxMessageBytes.toNat :=
    fun b => encodeFacadeToVec_eq_ok_iff
  have hinto := encodeFacadeIntoWithResourceLimits_spec B limits m destination
  refine ⟨fun n => ?_, hvec, fun b hb => ?_, fun e he => ?_,
    encodeFacadeToVecWithResourceLimits_spec B limits m, hinto.1, hinto.2⟩
  · rw [encodedLen, facadeEncodedLen_eq_ok_iff]
    constructor
    · intro h
      rcases h with ⟨hn, hle⟩
      exact ⟨m.octets, (hvec _).mpr ⟨rfl, hn ▸ hle⟩, hn.symm⟩
    · intro h
      rcases h with ⟨b, hb, hn⟩
      obtain ⟨hoctets, hle⟩ := (hvec b).mp hb
      rw [← hn, hoctets] at *
      exact ⟨rfl, hle⟩
  · obtain ⟨hoctets, hle⟩ := (hvec b).mp hb
    have hlen := (facadeEncodedLen_eq_ok_iff B m).mpr ⟨congrArg List.length hoctets, hle⟩
    rw [encodeInto, encodeFacadeInto_eq, hlen, hoctets]
    rfl
  · have he : encodeFacadeToVec B m = .error e := he
    rw [encodeInto, encodeFacadeInto_eq]
    unfold encodeFacadeToVec at he
    cases hlen : facadeEncodedLen B m with
    | error e' =>
      rw [hlen] at he
      cases he
      rfl
    | ok n =>
      obtain ⟨hn, hle⟩ := (facadeEncodedLen_eq_ok_iff B m).mp hlen
      rw [hn] at hle
      rw [hlen] at he
      simp only at he
      rw [writeFacadeWire_nil m (lt_of_le_maxMessageBytes B hle)] at he
      cases he

end FacadeMessage

end Pb
end Core
end YamlSigil
