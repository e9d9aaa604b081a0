/-
Decomposition of the signed YAML stream envelope.

A constrained marker is `---` at a line start followed by LF or CRLF.  The
source tests an index for a marker by looking at single octets around it.  Here
a marker is also a split `bytes = pre ++ (marker e ++ post)` behind a line
start, and `markerLen_eq_some_iff` says that the two agree.  No marker starts
inside another one, so the scan that jumps over each marker finds the last one.
-/
import YamlSigil.Core.Payload
import YamlSigil.Format.Scan

namespace YamlSigil
namespace Core

open Format

/-! ## The scan -/

structure SignatureRanges where
  payload : Range
  /-- With the marker. -/
  signatureDocument : Range
  /-- Without the marker. -/
  signatureCarrier : Range
deriving Repr, DecidableEq

inductive DecompositionOutcome where
  | unsigned
  | malformed
  | signed (ranges : SignatureRanges)
deriving Repr, DecidableEq

def utf8Ok (bytes : Bytes) : Bool := (fromUtf8 bytes).isSome

def isLineStart (bytes : Bytes) (idx : Nat) : Bool :=
  if idx = 0 then true
  else if idx > bytes.length then false
  else bytes[idx - 1]? == some 0x0A

/-- The length of the constrained marker at `i`. -/
def markerLen (bytes : Bytes) (i : Nat) : Option Nat :=
  if i + 3 > bytes.length then none
  else if bytes[i]? ≠ some 0x2D ∨ bytes[i + 1]? ≠ some 0x2D ∨ bytes[i + 2]? ≠ some 0x2D then none
  else if !isLineStart bytes i then none
  else if i + 3 ≥ bytes.length then none
  else
    match bytes[i + 3]? with
    | some 0x0A => some 4
    | some 0x0D => if i + 5 ≤ bytes.length ∧ bytes[i + 4]? = some 0x0A then some 5 else none
    | _ => none

inductive Eol where
  | lf
  | crlf
deriving Repr, DecidableEq

def Eol.octets : Eol → Bytes
  | .lf => [0x0A]
  | .crlf => [0x0D, 0x0A]

def marker (e : Eol) : Bytes := [0x2D, 0x2D, 0x2D] ++ e.octets

theorem marker_lf : marker .lf = [0x2D, 0x2D, 0x2D, 0x0A] := rfl

theorem length_marker_pos (e : Eol) : 0 < (marker e).length := by
  cases e <;> decide

theorem lineStart_marker (e : Eol) : LineStart (marker e) := by
  cases e
  · exact lineStart_append_lf [0x2D, 0x2D, 0x2D]
  · exact lineStart_append_lf [0x2D, 0x2D, 0x2D, 0x0D]

/-- A constrained marker splits `bytes` into `pre` and `post`. -/
structure MarkerAt (bytes pre : Bytes) (e : Eol) (post : Bytes) : Prop where
  split : bytes = pre ++ (marker e ++ post)
  lineStart : LineStart pre

theorem isLineStart_append {pre s : Bytes} :
    isLineStart (pre ++ s) pre.length = true ↔ LineStart pre := by
  rcases List.eq_nil_or_concat pre with rfl | ⟨p, c, rfl⟩
  · simp [isLineStart, lineStart_nil]
  · rw [lineStart_iff, List.concat_eq_append]
    simp [isLineStart]

theorem markerLen_append {pre post : Bytes} {e : Eol} (hl : LineStart pre) :
    markerLen (pre ++ (marker e ++ post)) pre.length = some (marker e).length := by
  have hstart := isLineStart_append (s := marker e ++ post) |>.mpr hl
  cases e with
  | lf =>
    simp [markerLen, marker, Eol.octets] at hstart ⊢
    simp [hstart]
  | crlf =>
    simp [markerLen, marker, Eol.octets] at hstart ⊢
    simp [hstart]

theorem exists_append_of_le {bytes : Bytes} {i : Nat} (h : i ≤ bytes.length) :
    ∃ pre s, bytes = pre ++ s ∧ pre.length = i :=
  ⟨bytes.take i, bytes.drop i, (List.take_append_drop i bytes).symm, List.length_take_of_le h⟩

theorem getElem?_append_add (pre s : Bytes) (k : Nat) : (pre ++ s)[pre.length + k]? = s[k]? := by
  rw [List.getElem?_append_right (Nat.le_add_right _ k), Nat.add_sub_cancel_left]

theorem markerLen_eq_some_iff {bytes : Bytes} {i len : Nat} :
    markerLen bytes i = some len ↔
      ∃ pre e post, MarkerAt bytes pre e post ∧ pre.length = i ∧ (marker e).length = len := by
  constructor
  · intro h
    unfold markerLen at h
    by_cases hi : i + 3 > bytes.length
    · rw [if_pos hi] at h
      cases h
    rw [if_neg hi] at h
    obtain ⟨pre, s, rfl, rfl⟩ := exists_append_of_le (show i ≤ bytes.length by omega)
    have h0 : (pre ++ s)[pre.length]? = s[0]? := getElem?_append_add pre s 0
    simp only [h0, getElem?_append_add] at h
    -- four octets at least, or the tests above fail
    match s with
    | [] | [_] | [_, _] | [_, _, _] => simp at h hi
    | a :: b :: c :: d :: t =>
      simp at h
      obtain ⟨⟨rfl, rfl, rfl⟩, hs, h⟩ := h
      have hl : LineStart pre := isLineStart_append.mp hs
      split at h
      · next hd =>
        cases hd
        exact ⟨pre, .lf, t, ⟨rfl, hl⟩, rfl, Option.some.inj h⟩
      · next hd =>
        cases hd
        match t with
        | [] => simp at h
        | x :: t =>
          simp at h
          obtain ⟨rfl, h⟩ := h
          exact ⟨pre, .crlf, t, ⟨rfl, hl⟩, rfl, h⟩
      · cases h
  · intro h
    rcases h with ⟨pre, e, post, hm, hi, hlen⟩
    rw [hm.split, ← hi, ← hlen]
    exact markerLen_append hm.lineStart

theorem markerLen_ne_none_iff {bytes : Bytes} {i : Nat} :
    markerLen bytes i ≠ none ↔ ∃ pre e post, MarkerAt bytes pre e post ∧ pre.length = i := by
  rw [Option.ne_none_iff_exists']
  constructor
  · intro h
    rcases h with ⟨len, h⟩
    obtain ⟨pre, e, post, hm, hi, -⟩ := markerLen_eq_some_iff.mp h
    exact ⟨pre, e, post, hm, hi⟩
  · intro h
    rcases h with ⟨pre, e, post, hm, hi⟩
    exact ⟨_, markerLen_eq_some_iff.mpr ⟨pre, e, post, hm, hi, rfl⟩⟩

/-- The octets of a marker in front of its last one are no line feeds. -/
theorem marker_no_inner_lf {e : Eol} {k : Nat} (h : k + 1 < (marker e).length) :
    (marker e)[k]? ≠ some 0x0A := by
  cases e with
  | lf => exact (by decide : ∀ k < 3, (marker .lf)[k]? ≠ some 0x0A) k (Nat.lt_of_succ_lt_succ h)
  | crlf =>
    exact (by decide : ∀ k < 4, (marker .crlf)[k]? ≠ some 0x0A) k (Nat.lt_of_succ_lt_succ h)

theorem marker_gap {bytes pre pre' post post' : Bytes} {e e' : Eol}
    (h : MarkerAt bytes pre e post) (h' : MarkerAt bytes pre' e' post')
    (hlt : pre.length < pre'.length) : pre.length + (marker e).length ≤ pre'.length := by
  by_cases hin : pre.length + (marker e).length ≤ pre'.length
  · exact hin
  exfalso
  -- the octet in front of `pre'` would be an inner octet of the marker at `pre`
  obtain ⟨k, hk⟩ : ∃ k, pre'.length = pre.length + k + 1 := ⟨pre'.length - pre.length - 1, by omega⟩
  have hne : pre' ≠ [] := List.ne_nil_of_length_pos (by omega)
  have hlf : bytes[pre.length + k]? = some 0x0A := by
    obtain hp | ⟨p, hp⟩ := h'.lineStart
    · exact absurd hp hne
    · have hplen : p.length = pre.length + k := by
        have := congrArg List.length hp
        rw [List.length_append, List.length_singleton] at this
        omega
      rw [h'.split, hp, ← hplen, List.append_assoc]
      exact getElem?_append_add p _ 0
  rw [h.split, getElem?_append_add, List.getElem?_append_left (by omega)] at hlf
  exact marker_no_inner_lf (by omega) hlf

/-- The markers of `bytes`, for the scan. -/
def markers (bytes : Bytes) : Scan.Tokens where
  at? := markerLen bytes
  pos := by
    intro i len h
    obtain ⟨_, e, _, _, _, rfl⟩ := markerLen_eq_some_iff.mp h
    exact length_marker_pos e

theorem markers_disjoint (bytes : Bytes) : (markers bytes).Disjoint := by
  intro i len j hi hij hj
  by_cases hnone : markerLen bytes j = none
  · exact hnone
  exfalso
  obtain ⟨pre, e, post, hm, rfl, rfl⟩ := markerLen_eq_some_iff.mp hi
  obtain ⟨pre', e', post', hm', rfl⟩ := markerLen_ne_none_iff.mp hnone
  have := marker_gap hm hm' hij
  omega

/-- The loop tries each index in turn and jumps over each marker it finds. -/
def findLastMarker (bytes : Bytes) : Option Nat := (markers bytes).lastHit bytes.length

/-- Run Artifact Decomposition on artifact octets. -/
def decomposeArtifact (artifact : Bytes) : DecompositionOutcome :=
  if !utf8Ok artifact || bomAtZero artifact then .malformed
  else if artifact.isEmpty then .unsigned
  else
    match findLastMarker artifact with
    | none => .unsigned
    | some m =>
      match markerLen artifact m with
      | none => .malformed
      | some markerTail =>
        let t := m + markerTail
        if t > artifact.length then .malformed
        else if t = artifact.length then .malformed
        else .signed {
          payload := ⟨0, m⟩
          signatureDocument := ⟨m, artifact.length⟩
          signatureCarrier := ⟨t, artifact.length⟩ }

/-! ## The last marker -/

def HasMarker (bytes : Bytes) : Prop := ∃ pre e post, MarkerAt bytes pre e post

/-- The marker no other marker follows. -/
structure LastMarker (bytes pre : Bytes) (e : Eol) (post : Bytes) : Prop
    extends MarkerAt bytes pre e post where
  last : ∀ {pre' e' post'}, MarkerAt bytes pre' e' post' → pre'.length ≤ pre.length

theorem LastMarker.hasMarker {bytes pre post : Bytes} {e : Eol}
    (h : LastMarker bytes pre e post) : HasMarker bytes := ⟨pre, e, post, h.toMarkerAt⟩

/-- The octets up to and including a marker end a line. -/
theorem MarkerAt.lineStart_head {bytes pre post : Bytes} {e : Eol}
    (h : MarkerAt bytes pre e post) : LineStart (pre ++ marker e) :=
  (lineStart_append_iff h.lineStart).mpr (lineStart_marker e)

/-- Markers behind a line start are the markers of what follows it. -/
theorem MarkerAt.prepend {a bytes pre post : Bytes} {e : Eol} (ha : LineStart a)
    (h : MarkerAt bytes pre e post) : MarkerAt (a ++ bytes) (a ++ pre) e post where
  split := by rw [h.split, List.append_assoc]
  lineStart := (lineStart_append_iff ha).mpr h.lineStart

theorem MarkerAt.of_append {a b pre post : Bytes} {e : Eol} (ha : LineStart a)
    (h : MarkerAt (a ++ b) pre e post) (hlen : a.length ≤ pre.length) :
    ∃ q, pre = a ++ q ∧ MarkerAt b q e post := by
  have hp : a <+: pre := by
    refine List.prefix_of_prefix_length_le (List.prefix_append a b) ?_ hlen
    rw [h.split]
    exact List.prefix_append pre _
  obtain ⟨q, rfl⟩ := hp
  refine ⟨q, rfl, ?_, (lineStart_append_iff ha).mp h.lineStart⟩
  have hsplit := h.split
  rwa [List.append_assoc, List.append_cancel_left_eq] at hsplit

/-- A marker is the last one when nothing behind it has a marker. -/
theorem MarkerAt.last_iff {bytes pre post : Bytes} {e : Eol} (h : MarkerAt bytes pre e post) :
    LastMarker bytes pre e post ↔ ¬ HasMarker post := by
  have hsplit : bytes = (pre ++ marker e) ++ post := by rw [h.split, List.append_assoc]
  constructor
  · intro hlast h
    rcases h with ⟨q, e', post', hq⟩
    have hm : MarkerAt bytes (pre ++ marker e ++ q) e' post' := by
      rw [hsplit]
      exact hq.prepend h.lineStart_head
    have hle := hlast.last hm
    have hpos := length_marker_pos e
    simp only [List.length_append] at hle
    omega
  · intro hno
    refine ⟨h, fun {pre' e' post'} hm => ?_⟩
    by_cases hle : pre'.length ≤ pre.length
    · exact hle
    exfalso
    have hgap := marker_gap h hm (by omega)
    rw [hsplit] at hm
    obtain ⟨q, -, hq⟩ := hm.of_append h.lineStart_head (by rwa [List.length_append])
    exact hno ⟨q, e', post', hq⟩

theorem findLastMarker_eq_none_iff {bytes : Bytes} :
    findLastMarker bytes = none ↔ ¬ HasMarker bytes := by
  unfold findLastMarker
  rw [Scan.Tokens.lastHit_eq_none_iff (markers_disjoint bytes)]
  constructor
  · intro h h
    rcases h with ⟨pre, e, post, hm⟩
    have hlt : pre.length < bytes.length := by
      have hpos := length_marker_pos e
      rw [hm.split, List.length_append, List.length_append]
      omega
    exact markerLen_ne_none_iff.mpr ⟨pre, e, post, hm, rfl⟩ (h pre.length hlt)
  · intro h j _
    by_cases hnone : markerLen bytes j = none
    · exact hnone
    · obtain ⟨pre, e, post, hm, -⟩ := markerLen_ne_none_iff.mp hnone
      exact absurd ⟨pre, e, post, hm⟩ h

theorem findLastMarker_eq_some_iff {bytes : Bytes} {m : Nat} :
    findLastMarker bytes = some m ↔ ∃ pre e post, LastMarker bytes pre e post ∧ pre.length = m := by
  unfold findLastMarker
  rw [Scan.Tokens.lastHit_eq_some_iff (markers_disjoint bytes)]
  constructor
  · intro h
    rcases h with ⟨_, hhit, hmax⟩
    obtain ⟨pre, e, post, hm, rfl⟩ := markerLen_ne_none_iff.mp hhit
    refine ⟨pre, e, post, ⟨hm, fun {pre' e' post'} hm' => ?_⟩, rfl⟩
    by_cases hle : pre'.length ≤ pre.length
    · exact hle
    exfalso
    have hlt : pre'.length < bytes.length := by
      have hpos := length_marker_pos e'
      rw [hm'.split, List.length_append, List.length_append]
      omega
    exact markerLen_ne_none_iff.mpr ⟨pre', e', post', hm', rfl⟩ (hmax _ (by omega) hlt)
  · intro h
    rcases h with ⟨pre, e, post, hm, hlen⟩
    subst hlen
    refine ⟨?_, markerLen_ne_none_iff.mpr ⟨pre, e, post, hm.toMarkerAt, rfl⟩, fun j hj _ => ?_⟩
    · have hpos := length_marker_pos e
      rw [hm.split, List.length_append, List.length_append]
      omega
    · by_cases hnone : markerLen bytes j = none
      · exact hnone
      · obtain ⟨pre', e', post', hm', rfl⟩ := markerLen_ne_none_iff.mp hnone
        exact absurd (hm.last hm') (by omega)

/-- The marker the scan returns is the greatest one, octets that it jumps over included. -/
theorem findLastMarker_eq_some_iff_greatest {bytes : Bytes} {m : Nat} :
    findLastMarker bytes = some m ↔
      markerLen bytes m ≠ none ∧ ∀ i, markerLen bytes i ≠ none → i ≤ m := by
  rw [findLastMarker_eq_some_iff]
  constructor
  · intro h
    rcases h with ⟨pre, e, post, hm, hlen⟩
    refine ⟨markerLen_ne_none_iff.mpr ⟨pre, e, post, hm.toMarkerAt, hlen⟩, fun i hi => ?_⟩
    obtain ⟨pre', e', post', hm', rfl⟩ := markerLen_ne_none_iff.mp hi
    rw [← hlen]
    exact hm.last hm'
  · intro h
    rcases h with ⟨hhit, hmax⟩
    obtain ⟨pre, e, post, hm, rfl⟩ := markerLen_ne_none_iff.mp hhit
    refine ⟨pre, e, post, ⟨hm, fun {pre' e' post'} hm' => ?_⟩, rfl⟩
    exact hmax pre'.length (markerLen_ne_none_iff.mpr ⟨pre', e', post', hm', rfl⟩)

/-- The scan ends at a given marker when that is the last one. -/
theorem MarkerAt.findLastMarker_iff {bytes pre post : Bytes} {e : Eol}
    (h : MarkerAt bytes pre e post) :
    findLastMarker bytes = some pre.length ↔ LastMarker bytes pre e post := by
  rw [findLastMarker_eq_some_iff]
  constructor
  · intro hlast
    rcases hlast with ⟨pre', e', post', hm, hlen⟩
    refine ⟨h, fun hm' => ?_⟩
    rw [← hlen]
    exact hm.last hm'
  · intro hm
    exact ⟨pre, e, post, hm, rfl⟩

theorem hasMarker_iff_exists_last {bytes : Bytes} :
    HasMarker bytes ↔ ∃ pre e post, LastMarker bytes pre e post := by
  constructor
  · intro h
    cases hf : findLastMarker bytes with
    | none => exact absurd h (findLastMarker_eq_none_iff.mp hf)
    | some m =>
      obtain ⟨pre, e, post, hm, -⟩ := findLastMarker_eq_some_iff.mp hf
      exact ⟨pre, e, post, hm⟩
  · intro h
    rcases h with ⟨pre, e, post, hm⟩
    exact hm.hasMarker

/-- The last marker is one marker. -/
theorem LastMarker.unique {bytes pre pre' post post' : Bytes} {e e' : Eol}
    (h : LastMarker bytes pre e post) (h' : LastMarker bytes pre' e' post') :
    pre = pre' ∧ e = e' ∧ post = post' := by
  have hlen : pre.length = pre'.length :=
    Nat.le_antisymm (h'.last h.toMarkerAt) (h.last h'.toMarkerAt)
  obtain ⟨rfl, hrest⟩ := List.append_inj (h.split.symm.trans h'.split) hlen
  have hmark : (marker e).length = (marker e').length := by
    have he : markerLen (pre ++ (marker e ++ post)) pre.length = some (marker e).length :=
      markerLen_append h.lineStart
    rw [hrest, markerLen_append (e := e') h.lineStart] at he
    exact (Option.some.inj he).symm
  obtain ⟨hee, rfl⟩ := List.append_inj hrest hmark
  refine ⟨rfl, ?_, rfl⟩
  cases e <;> cases e' <;> first | rfl | (cases hee)

/-! ## What decomposition returns -/

/-- No byte order mark, and UTF-8 throughout. -/
def CleanText (artifact : Bytes) : Prop :=
  Utf8.Valid artifact ∧ ¬ [0xEF, 0xBB, 0xBF] <+: artifact

theorem malformedText_iff {artifact : Bytes} :
    (!utf8Ok artifact || bomAtZero artifact) = true ↔ ¬ CleanText artifact := by
  simp only [Bool.or_eq_true, Bool.not_eq_true', CleanText, not_and_or, ← bomAtZero_iff,
    ← Utf8.isSome_decode_iff, Bool.not_eq_true, Bool.not_eq_false, utf8Ok]

def signedRanges (pre : Bytes) (e : Eol) (post : Bytes) : SignatureRanges where
  payload := ⟨0, pre.length⟩
  signatureDocument := ⟨pre.length, (pre ++ (marker e ++ post)).length⟩
  signatureCarrier := ⟨pre.length + (marker e).length, (pre ++ (marker e ++ post)).length⟩

theorem decomposeArtifact_of_not_cleanText {artifact : Bytes} (h : ¬ CleanText artifact) :
    decomposeArtifact artifact = .malformed := by
  rw [decomposeArtifact, if_pos (malformedText_iff.mpr h)]

theorem decomposeArtifact_of_not_hasMarker {artifact : Bytes} (hc : CleanText artifact)
    (h : ¬ HasMarker artifact) : decomposeArtifact artifact = .unsigned := by
  rw [decomposeArtifact, if_neg (fun hm => malformedText_iff.mp hm hc),
    findLastMarker_eq_none_iff.mpr h]
  split <;> rfl

theorem decomposeArtifact_of_lastMarker {artifact pre post : Bytes} {e : Eol}
    (hc : CleanText artifact) (h : LastMarker artifact pre e post) :
    decomposeArtifact artifact =
      if post = [] then .malformed else .signed (signedRanges pre e post) := by
  have hne : ¬ artifact.isEmpty = true := by
    have hpos := length_marker_pos e
    rw [List.isEmpty_iff, h.split]
    intro hnil
    have := congrArg List.length hnil
    simp only [List.length_append, List.length_nil] at this
    omega
  have hlen : markerLen artifact pre.length = some (marker e).length :=
    markerLen_eq_some_iff.mpr ⟨pre, e, post, h.toMarkerAt, rfl, rfl⟩
  have htotal : artifact.length = pre.length + ((marker e).length + post.length) := by
    rw [h.split, List.length_append, List.length_append]
  rw [decomposeArtifact, if_neg (fun hm => malformedText_iff.mp hm hc), if_neg hne,
    findLastMarker_eq_some_iff.mpr ⟨pre, e, post, h, rfl⟩]
  simp only [hlen]
  rw [if_neg (by omega)]
  by_cases hpost : post = []
  · subst hpost
    rw [List.length_nil] at htotal
    rw [if_pos (by omega), if_pos rfl]
  · have hpos := List.length_pos_of_ne_nil hpost
    rw [if_neg (by omega), if_neg hpost, signedRanges, ← h.split]

end Core
end YamlSigil
