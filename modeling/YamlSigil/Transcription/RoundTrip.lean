/-
Composition and decomposition of signed YAML streams, in both orders.

Decomposition followed by composition gives the artifact back with its marker
line normalized.  Composition followed by decomposition gives the components
back when the carrier is text and not empty; the composer takes any carrier
without a marker, and decomposition rejects what then is no envelope.
-/
import YamlSigil.Transcription.YamlEnvelope

namespace YamlSigil
namespace Transcription

open Format YamlSigil.Core

theorem decomposeYaml_structural (a : Bytes) : ∃ r, decomposeYaml a = .structural r := by
  have hr := decomposeYaml_reading a
  generalize decomposeYaml a = d at hr
  cases hr with
  | ok v _ => exact ⟨_, rfl⟩
  | unsigned _ _ => exact ⟨_, rfl⟩
  | malformed _ => exact ⟨_, rfl⟩

section
variable {a : Bytes} {r : DecomposeStructuralResult} (h : decomposeYaml a = .structural r)

include h

theorem outcome_ok_iff :
    r.outcome = .ok ↔ CleanText a ∧ ∃ p e c, LastMarker a p e c ∧ c ≠ [] := by
  constructor
  · intro hok
    have hr := decomposeYaml_reading a
    rw [h] at hr
    cases hr with
    | ok v hv =>
      rw [← hv]
      exact ⟨v.cleanText, v.payload, v.eol, v.carrier, v.lastMarker, v.carrier_ne_nil⟩
    | unsigned _ _ => cases hok
    | malformed _ => cases hok
  · intro h
    rcases h with ⟨hclean, p, e, c, hm, hc⟩
    obtain ⟨v, hv, -⟩ := exists_envelope hclean hm hc
    rw [← hv, decomposeYaml_render] at h
    cases h
    rfl

theorem outcome_unsigned_iff : r.outcome = .unsigned ↔ CleanText a ∧ ¬ HasMarker a := by
  constructor
  · intro hun
    have hr := decomposeYaml_reading a
    rw [h] at hr
    cases hr with
    | ok v _ => cases hun
    | unsigned hclean hm => exact ⟨hclean, hm⟩
    | malformed _ => cases hun
  · intro h
    rcases h with ⟨hclean, hm⟩
    unfold decomposeYaml at h
    rw [decomposeArtifact_of_not_hasMarker hclean hm] at h
    cases h
    rfl

/-- The payload and the carrier of an accepted artifact. -/
theorem parts_of_outcome_ok (hok : r.outcome = .ok) :
    ∃ v : YamlEnvelope, v.render = a ∧ r.payload = some v.payload ∧
      r.signatureCarrier = some v.carrier := by
  have hr := decomposeYaml_reading a
  rw [h] at hr
  cases hr with
  | ok v hv => exact ⟨v, hv, rfl, rfl⟩
  | unsigned _ _ => cases hok
  | malformed _ => cases hok

end

/-- Main result on decomposition: which artifacts have which outcome, and that an
accepted artifact is its payload, its last marker and its carrier, which compose
to the artifact with the marker line normalized. -/
theorem yaml_decomposition_exact_and_lossless (a : Bytes) :
    ∃ r, decompose ⟨a, .yaml, none⟩ = .structural r ∧
      (r.outcome = .ok ↔ CleanText a ∧ ∃ p e c, LastMarker a p e c ∧ c ≠ []) ∧
      (r.outcome = .unsigned ↔ CleanText a ∧ ¬ HasMarker a) ∧
      (r.outcome = .malformedAttemptedSigned ↔ ¬ r.outcome = .ok ∧ ¬ r.outcome = .unsigned) ∧
      (r.outcome = .ok → ∃ p e c, r.payload = some p ∧ r.signatureCarrier = some c ∧
        LastMarker a p e c ∧ a = p ++ (marker e ++ c) ∧ c ≠ [] ∧
        ¬ HasMarker c ∧ validatePayloadStream p = .ok () ∧
        compose ⟨p, c, .yaml⟩ = some (.success ⟨p ++ (marker .lf ++ c), .yaml⟩) ∧
        (e = .lf → p ++ (marker .lf ++ c) = a)) := by
  obtain ⟨r, hr⟩ := decomposeYaml_structural a
  refine ⟨r, hr, outcome_ok_iff hr, outcome_unsigned_iff hr, ?_, fun hok => ?_⟩
  · cases r.outcome <;> decide
  · obtain ⟨v, hv, hp, hc⟩ := parts_of_outcome_ok hr hok
    subst hv
    refine ⟨v.payload, v.eol, v.carrier, hp, hc, v.lastMarker, rfl, v.carrier_ne_nil,
      v.carrier_clean, validatePayloadStream_eq_ok_iff.mpr v.payload_stream, compose_envelope v,
      fun he => ?_⟩
    unfold YamlEnvelope.render
    rw [he]

/-! ## Composition first -/

theorem decomposeYaml_of_last_empty {a p : Bytes} {e : Eol} (hm : LastMarker a p e []) :
    decomposeYaml a = .structural ⟨.malformedAttemptedSigned, none, none, none⟩ := by
  unfold decomposeYaml
  by_cases hclean : CleanText a
  · rw [decomposeArtifact_of_lastMarker hclean hm, if_pos rfl]
  · rw [decomposeArtifact_of_not_cleanText hclean]

/-- Main result on composition: what the composer wrote comes apart into what it
was given when the carrier is text and not empty, and is malformed otherwise. -/
theorem yaml_compose_then_decompose {p c : Bytes} {s : ComposeSuccess}
    (h : compose ⟨p, c, .yaml⟩ = some (.success s)) :
    decompose ⟨s.artifact, .yaml, none⟩ =
      if c ≠ [] ∧ (fromUtf8 c).isSome = true then .structural ⟨.ok, some p, some c, none⟩
      else .structural ⟨.malformedAttemptedSigned, none, none, none⟩ := by
  obtain ⟨hp, hc, hs⟩ := composeYaml_eq_success_iff.mp h
  rw [hs]
  show decomposeYaml (p ++ (marker .lf ++ c)) = _
  have hm : LastMarker (p ++ (marker .lf ++ c)) p .lf c :=
    (MarkerAt.mk rfl hp.terminated).last_iff.mpr hc
  by_cases hne : c = []
  · rw [if_neg (fun hok => hok.1 hne)]
    subst hne
    exact decomposeYaml_of_last_empty hm
  · by_cases hu : Utf8.Valid c
    · rw [if_pos ⟨hne, Utf8.isSome_decode_iff.mpr hu⟩]
      exact decomposeYaml_eq_ok_iff.mpr ⟨⟨p, .lf, c, hp, hu, hne, hc⟩, rfl, rfl, rfl⟩
    · rw [if_neg (fun hok => hu (Utf8.isSome_decode_iff.mp hok.2))]
      unfold decomposeYaml
      rw [decomposeArtifact_of_not_cleanText]
      intro hclean
      exact hu ((cleanText_append_marker_iff hp.terminated).mp hclean).2

/-- The payload `k: v` and a carrier of one letter. -/
theorem yaml_compose_then_decompose_letter :
    decompose ⟨[0x6B, 0x3A, 0x20, 0x76, 0x0A, 0x2D, 0x2D, 0x2D, 0x0A, 0x61], .yaml, none⟩ =
      .structural ⟨.ok, some [0x6B, 0x3A, 0x20, 0x76, 0x0A], some [0x61], none⟩ := by
  have h : compose ⟨[0x6B, 0x3A, 0x20, 0x76, 0x0A], [0x61], .yaml⟩ = some (.success
      ⟨[0x6B, 0x3A, 0x20, 0x76, 0x0A, 0x2D, 0x2D, 0x2D, 0x0A, 0x61], .yaml⟩) := by
    decide +kernel
  exact (yaml_compose_then_decompose h).trans (if_pos (by decide +kernel))

/-- The same payload with an empty carrier composes and does not come apart. -/
theorem compose_empty_carrier_not_decomposed :
    ¬ ∀ p c s, compose ⟨p, c, .yaml⟩ = some (.success s) →
      decompose ⟨s.artifact, .yaml, none⟩ = .structural ⟨.ok, some p, some c, none⟩ := by
  intro h
  have hcompose : compose ⟨[0x6B, 0x3A, 0x20, 0x76, 0x0A], [], .yaml⟩ = some (.success
      ⟨[0x6B, 0x3A, 0x20, 0x76, 0x0A, 0x2D, 0x2D, 0x2D, 0x0A], .yaml⟩) := by
    decide +kernel
  have hdecompose : decompose
      ⟨[0x6B, 0x3A, 0x20, 0x76, 0x0A, 0x2D, 0x2D, 0x2D, 0x0A], .yaml, none⟩ =
        .structural ⟨.malformedAttemptedSigned, none, none, none⟩ := by
    decide +kernel
  have := h _ _ _ hcompose
  rw [hdecompose] at this
  cases this

end Transcription
end YamlSigil
