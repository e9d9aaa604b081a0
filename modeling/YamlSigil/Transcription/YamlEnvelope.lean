/-
Signed YAML stream envelopes.

An envelope is a payload stream, a marker line and a carrier.  `YamlEnvelope`
carries the rules that make the octets of an envelope come apart in one way
only, and decomposition accepts exactly the octets of envelopes.  The composer
builds the envelopes whose marker ends in a line feed, but does not ask the
carrier to be text or to be there.
-/
import YamlSigil.Transcription.Transcriber

namespace YamlSigil
namespace Transcription

open Format YamlSigil.Core

/-! ## Markers in carriers -/

theorem infix_of_markerAt {carrier pre post : Bytes} {e : Eol} (h : MarkerAt carrier pre e post) :
    marker e <+: carrier ∨ (0x0A :: marker e) <:+: carrier := by
  obtain hp | ⟨p, hp⟩ := h.lineStart
  · refine .inl ⟨post, ?_⟩
    rw [h.split, hp, List.nil_append]
  · refine .inr ⟨p, post, ?_⟩
    rw [h.split, hp]
    simp

theorem hasMarker_of_prefix {carrier : Bytes} {e : Eol} (h : marker e <+: carrier) :
    HasMarker carrier := by
  obtain ⟨post, hpost⟩ := h
  exact ⟨[], e, post, hpost.symm, lineStart_nil⟩

theorem hasMarker_of_infix {carrier : Bytes} {e : Eol} (h : (0x0A :: marker e) <:+: carrier) :
    HasMarker carrier := by
  obtain ⟨p, post, hpost⟩ := h
  refine ⟨p ++ [0x0A], e, post, ?_, lineStart_append_lf p⟩
  rw [← hpost]
  simp

/-- The composer's window test looks for what the decomposition scan looks for. -/
theorem containsConstrainedMarker_iff {carrier : Bytes} :
    containsConstrainedMarker carrier = true ↔ HasMarker carrier := by
  have hlf := Scan.any_windows_iff (l := carrier) (w := 0x0A :: marker .lf)
  have hcrlf := Scan.any_windows_iff (l := carrier) (w := 0x0A :: marker .crlf)
  have hprefix : ∀ e, (marker e).isPrefixOf carrier = true ↔ marker e <+: carrier := fun e =>
    List.isPrefixOf_iff_prefix
  show ((marker .lf).isPrefixOf carrier || (marker .crlf).isPrefixOf carrier ||
    (Scan.windows (0x0A :: marker .lf).length carrier).any (· == 0x0A :: marker .lf) ||
    (Scan.windows (0x0A :: marker .crlf).length carrier).any (· == 0x0A :: marker .crlf)) = true ↔ _
  rw [Bool.or_eq_true, Bool.or_eq_true, Bool.or_eq_true, hlf, hcrlf, hprefix, hprefix]
  constructor
  · intro h
    rcases h with ((h | h) | h) | h
    · exact hasMarker_of_prefix h
    · exact hasMarker_of_prefix h
    · exact hasMarker_of_infix h
    · exact hasMarker_of_infix h
  · intro h
    rcases h with ⟨pre, e, post, hm⟩
    cases e with
    | lf =>
      exact (infix_of_markerAt hm).elim (fun h => .inl (.inl (.inl h))) (fun h => .inl (.inr h))
    | crlf => exact (infix_of_markerAt hm).elim (fun h => .inl (.inl (.inr h))) .inr

theorem containsConstrainedMarker_iff_findLastMarker {carrier : Bytes} :
    containsConstrainedMarker carrier = true ↔ ∃ m, findLastMarker carrier = some m := by
  rw [containsConstrainedMarker_iff, ← Option.ne_none_iff_exists', Ne,
    findLastMarker_eq_none_iff, not_not]

theorem findLastMarker_behind_payload {payload carrier : Bytes} (hp : LineStart payload) :
    findLastMarker (payload ++ (marker .lf ++ carrier)) = some payload.length ↔
      containsConstrainedMarker carrier = false := by
  have hm : MarkerAt (payload ++ (marker .lf ++ carrier)) payload .lf carrier := ⟨rfl, hp⟩
  rw [hm.findLastMarker_iff, hm.last_iff, ← containsConstrainedMarker_iff, Bool.not_eq_true]

/-- The composer finds a marker where the decomposer does, and a carrier in which it finds
none is split off where it was put. -/
theorem marker_detectors_agree (carrier : Bytes) :
    (containsConstrainedMarker carrier = true ↔ ∃ m, findLastMarker carrier = some m) ∧
      (∀ m, findLastMarker carrier = some m ↔
        markerLen carrier m ≠ none ∧ ∀ i, markerLen carrier i ≠ none → i ≤ m) ∧
      ∀ payload, (payload = [] ∨ ∃ p, payload = p ++ [0x0A]) →
        (findLastMarker (payload ++ ([0x2D, 0x2D, 0x2D, 0x0A] ++ carrier)) = some payload.length ↔
          containsConstrainedMarker carrier = false) :=
  ⟨containsConstrainedMarker_iff_findLastMarker,
    fun _ => findLastMarker_eq_some_iff_greatest,
    fun _ hp => findLastMarker_behind_payload hp⟩

/-- A carrier of one octet behind a payload of one line. -/
theorem marker_detectors_agree_on_one_line :
    findLastMarker ([0x61, 0x0A] ++ ([0x2D, 0x2D, 0x2D, 0x0A] ++ [0x62])) = some 2 :=
  ((marker_detectors_agree [0x62]).2.2 [0x61, 0x0A] (.inr ⟨[0x61], rfl⟩)).mpr (by decide)

/-! ## Text behind and in front of a marker -/

theorem valid_append_marker_iff {p c : Bytes} {e : Eol} :
    Utf8.Valid (p ++ (marker e ++ c)) ↔ Utf8.Valid p ∧ Utf8.Valid c := by
  have hdash : (0x2D : UInt8).toNat < 128 := by decide
  have htail : ∀ (a : UInt8) (s : Bytes), a.toNat < 128 → (Utf8.Valid (a :: s) ↔ Utf8.Valid s) :=
    fun a s ha => by
      have := Utf8.valid_append_cons_iff (p := []) (s := s) ha
      rw [List.nil_append] at this
      rw [this]
      exact and_iff_right ⟨[], rfl⟩
  cases e with
  | lf =>
    show Utf8.Valid (p ++ 0x2D :: 0x2D :: 0x2D :: 0x0A :: c) ↔ _
    rw [Utf8.valid_append_cons_iff hdash, htail _ _ hdash, htail _ _ hdash, htail _ _ (by decide)]
  | crlf =>
    show Utf8.Valid (p ++ 0x2D :: 0x2D :: 0x2D :: 0x0D :: 0x0A :: c) ↔ _
    rw [Utf8.valid_append_cons_iff hdash, htail _ _ hdash, htail _ _ hdash, htail _ _ (by decide),
      htail _ _ (by decide)]

/-- A byte order mark ends in front of the first marker. -/
theorem bom_append_marker_iff {p c : Bytes} {e : Eol} :
    [0xEF, 0xBB, 0xBF] <+: p ++ (marker e ++ c) ↔ [0xEF, 0xBB, 0xBF] <+: p := by
  have hm : marker e ++ c = 0x2D :: (0x2D :: 0x2D :: e.octets ++ c) := rfl
  rw [hm]
  match p with
  | [] => simp
  | [a] => simp
  | [a, b] => simp
  | a :: b :: d :: p => simp

theorem cleanText_append_marker_iff {p c : Bytes} {e : Eol} (hp : LineStart p) :
    CleanText (p ++ (marker e ++ c)) ↔ PayloadStream p ∧ Utf8.Valid c := by
  unfold CleanText
  rw [valid_append_marker_iff, bom_append_marker_iff]
  constructor
  · intro h
    rcases h with ⟨⟨hu, hc⟩, hb⟩
    exact ⟨⟨hu, hb, hp⟩, hc⟩
  · intro h
    rcases h with ⟨hs, hc⟩
    exact ⟨⟨hs.utf8, hc⟩, hs.no_bom⟩

/-! ## Envelopes -/

/-- A well-formed signed YAML stream envelope. -/
structure YamlEnvelope where
  payload : Bytes
  eol : Eol
  carrier : Bytes
  payload_stream : PayloadStream payload
  carrier_utf8 : Utf8.Valid carrier
  carrier_ne_nil : carrier ≠ []
  carrier_clean : ¬ HasMarker carrier

namespace YamlEnvelope

def render (v : YamlEnvelope) : Bytes := v.payload ++ (marker v.eol ++ v.carrier)

/-- The envelope with the marker line the composer writes. -/
def normalize (v : YamlEnvelope) : YamlEnvelope := { v with eol := .lf }

theorem lastMarker (v : YamlEnvelope) : LastMarker v.render v.payload v.eol v.carrier := by
  have hm : MarkerAt v.render v.payload v.eol v.carrier := ⟨rfl, v.payload_stream.terminated⟩
  exact hm.last_iff.mpr v.carrier_clean

theorem cleanText (v : YamlEnvelope) : CleanText v.render :=
  (cleanText_append_marker_iff v.payload_stream.terminated).mpr ⟨v.payload_stream, v.carrier_utf8⟩

/-- The octets of an envelope determine it. -/
theorem render_injective {v v' : YamlEnvelope} (h : v.render = v'.render) : v = v' := by
  obtain ⟨hp, he, hc⟩ := v.lastMarker.unique (h ▸ v'.lastMarker)
  obtain ⟨p, e, c, _, _, _, _⟩ := v
  obtain ⟨p', e', c', _, _, _, _⟩ := v'
  subst hp he hc
  rfl

end YamlEnvelope

/-- A last marker with something behind it makes clean text an envelope. -/
theorem exists_envelope {a p c : Bytes} {e : Eol} (hclean : CleanText a)
    (hm : LastMarker a p e c) (hc : c ≠ []) :
    ∃ v : YamlEnvelope, v.render = a ∧ v.payload = p ∧ v.eol = e ∧ v.carrier = c := by
  have hno : ¬ HasMarker c := hm.toMarkerAt.last_iff.mp hm
  rw [hm.split, cleanText_append_marker_iff hm.lineStart] at hclean
  exact ⟨⟨p, e, c, hclean.1, hclean.2, hc, hno⟩, hm.split.symm, rfl, rfl, rfl⟩

/-! ## Decomposition -/

theorem slice_payload (p : Bytes) (e : Eol) (c : Bytes) :
    slice (p ++ (marker e ++ c)) (signedRanges p e c).payload = p := slice_prefix p (marker e ++ c)

theorem slice_signatureCarrier (p : Bytes) (e : Eol) (c : Bytes) :
    slice (p ++ (marker e ++ c)) (signedRanges p e c).signatureCarrier = c := by
  have := slice_suffix (p ++ marker e) c rfl
  rwa [List.length_append, List.append_assoc] at this

theorem decomposeYaml_render (v : YamlEnvelope) :
    decomposeYaml v.render = .structural ⟨.ok, some v.payload, some v.carrier, none⟩ := by
  unfold decomposeYaml
  rw [decomposeArtifact_of_lastMarker v.cleanText v.lastMarker, if_neg v.carrier_ne_nil]
  simp only
  unfold YamlEnvelope.render
  rw [slice_payload, slice_signatureCarrier]

/-- The three answers of YAML decomposition. -/
inductive YamlReading (a : Bytes) : DecomposeResponse → Prop
  | ok (v : YamlEnvelope) : v.render = a →
      YamlReading a (.structural ⟨.ok, some v.payload, some v.carrier, none⟩)
  | unsigned : CleanText a → ¬ HasMarker a →
      YamlReading a (.structural ⟨.unsigned, none, none, none⟩)
  | malformed : (CleanText a → ∃ p e, LastMarker a p e []) →
      YamlReading a (.structural ⟨.malformedAttemptedSigned, none, none, none⟩)

theorem decomposeYaml_reading (a : Bytes) : YamlReading a (decomposeYaml a) := by
  by_cases hclean : CleanText a
  · by_cases hm : HasMarker a
    · obtain ⟨p, e, c, hlast⟩ := hasMarker_iff_exists_last.mp hm
      by_cases hc : c = []
      · subst hc
        unfold decomposeYaml
        rw [decomposeArtifact_of_lastMarker hclean hlast, if_pos rfl]
        exact .malformed fun _ => ⟨p, e, hlast⟩
      · obtain ⟨v, hv, -⟩ := exists_envelope hclean hlast hc
        rw [← hv, decomposeYaml_render]
        exact .ok v rfl
    · unfold decomposeYaml
      rw [decomposeArtifact_of_not_hasMarker hclean hm]
      exact .unsigned hclean hm
  · unfold decomposeYaml
    rw [decomposeArtifact_of_not_cleanText hclean]
    exact .malformed fun h => absurd h hclean

/-- Decomposition succeeds on the octets of envelopes and on nothing else. -/
theorem decomposeYaml_eq_ok_iff {a p c : Bytes} :
    decomposeYaml a = .structural ⟨.ok, some p, some c, none⟩ ↔
      ∃ v : YamlEnvelope, v.render = a ∧ v.payload = p ∧ v.carrier = c := by
  constructor
  · intro h
    have hr := decomposeYaml_reading a
    rw [h] at hr
    cases hr with
    | ok v hv => exact ⟨v, hv, rfl, rfl⟩
  · intro h
    rcases h with ⟨v, hv, hp, hc⟩
    rw [← hv, decomposeYaml_render, hp, hc]

/-! ## Composition -/

theorem composeYaml_eq_success_iff {p c : Bytes} {s : ComposeSuccess} :
    compose ⟨p, c, .yaml⟩ = some (.success s) ↔
      PayloadStream p ∧ ¬ HasMarker c ∧ s = ⟨p ++ (marker .lf ++ c), .yaml⟩ := by
  rw [compose_yaml, composeAfterInvocationValidation]
  rw [← validatePayloadStream_eq_ok_iff, ← containsConstrainedMarker_iff, marker_lf]
  cases validatePayloadStream p with
  | error e => exact ⟨fun h => (by cases h), fun h => (by cases h.1)⟩
  | ok u =>
    simp only [true_and]
    by_cases hm : containsConstrainedMarker c = true
    · rw [if_pos hm]
      exact ⟨fun h => (by cases h), fun h => absurd hm h.1⟩
    · rw [if_neg hm, Option.some.injEq, ComposeOutcome.success.injEq, List.append_assoc]
      exact ⟨fun h => ⟨hm, h.symm⟩, fun h => h.2.symm⟩

/-- The composer writes an envelope back with its marker normalized. -/
theorem compose_envelope (v : YamlEnvelope) :
    compose ⟨v.payload, v.carrier, .yaml⟩ = some (.success ⟨v.normalize.render, .yaml⟩) :=
  composeYaml_eq_success_iff.mpr ⟨v.payload_stream, v.carrier_clean, rfl⟩

end Transcription
end YamlSigil
