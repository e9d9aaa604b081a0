/-
Version progression on a support line.

A run adds one admitted version after the other to the published ones.  At each
point of it the published versions of the line are those up to its last stable one,
and the first candidates of the next patch.
-/
import YamlSigil.Release.Policy

namespace YamlSigil
namespace Release

open YamlSigil.Core Format.SemVer

/-! ## The verdict -/

theorem error_ne_ok {α : Type} {e : Text} {a : α} : (Except.error e : Except Text α) ≠ .ok a :=
  fun h => by cases h

namespace ReleaseLine

theorem admits_support {major minor : Nat} {v : Version} :
    (support major minor).admits v = true ↔ v.major = major ∧ v.minor = minor := by
  simp [admits]

theorem checkedAdd_one_eq {m n : Nat} : checkedAdd m 1 = some n ↔ m + 1 < 2 ^ 64 ∧ n = m + 1 := by
  unfold checkedAdd
  by_cases h : m + 1 < 2 ^ 64
  · rw [if_pos h, Option.some.injEq, and_iff_right h, eq_comm]
  · rw [if_neg h]
    exact iff_of_false (fun hnone => by cases hnone) fun hand => h hand.1

theorem requireVersion_eq_ok {line : ReleaseLine} {v : Version} :
    line.requireVersion v = .ok () ↔ line.admits v = true := by
  rw [requireVersion]
  by_cases h : line.admits v = true
  · simp [h]
  · simp [h]

theorem requireNextCandidate_none {line : ReleaseLine} {v : Version} {published : List Version}
    (h : line.lastOfPatch v published = none) :
    line.requireNextCandidate v published = .ok () ↔ ∃ n, ordinal v = .ok n := by
  unfold requireNextCandidate
  rw [h]
  cases ordinal v with
  | error e => exact iff_of_false error_ne_ok fun hn => by cases hn.choose_spec
  | ok n => exact iff_of_true rfl ⟨n, rfl⟩

theorem requireNextCandidate_some {line : ReleaseLine} {v w : Version} {published : List Version}
    (h : line.lastOfPatch v published = some w) :
    line.requireNextCandidate v published = .ok () ↔
      ∃ m, ordinal w = .ok m ∧ m + 1 < 2 ^ 64 ∧ ordinal v = .ok (m + 1) := by
  unfold requireNextCandidate
  rw [h]
  cases ordinal v with
  | error e =>
    refine iff_of_false error_ne_ok fun hm => ?_
    obtain ⟨m, -, -, hv⟩ := hm
    cases hv
  | ok n =>
    cases hw : ordinal w with
    | error e =>
      refine iff_of_false (fun hok => ?_) fun hm => ?_
      · simp only [bind, Except.bind, hw] at hok
        cases hok
      · obtain ⟨m, hm, -⟩ := hm
        cases hm
    | ok m =>
      simp only [bind, Except.bind, hw, Except.ok.injEq, exists_eq_left']
      by_cases hnext : checkedAdd m 1 = some n
      · rw [if_neg (not_not_intro hnext)]
        exact iff_of_true rfl (checkedAdd_one_eq.mp hnext)
      · rw [if_pos hnext]
        exact iff_of_false error_ne_ok fun hm => hnext (checkedAdd_one_eq.mpr hm)

theorem max?_eq_of_mem_iff {xs ys : List Version} (h : ∀ v, v ∈ xs ↔ v ∈ ys) :
    xs.max? = ys.max? := by
  cases hys : ys.max? with
  | none =>
    rw [List.max?_eq_none_iff] at hys ⊢
    exact List.eq_nil_iff_forall_not_mem.mpr fun v hv => by simpa [hys] using (h v).mp hv
  | some m =>
    obtain ⟨hmem, hle⟩ := List.max?_eq_some_iff.mp hys
    exact List.max?_eq_some_iff.mpr ⟨(h m).mpr hmem, fun v hv => hle v ((h v).mp hv)⟩

section
variable {line : ReleaseLine} {published published' : List Version}
  (h : ∀ v, line.admits v = true → (v ∈ published ↔ v ∈ published'))

include h

theorem max?_filter_congr {P : Version → Bool} (hP : ∀ v, P v = true → line.admits v = true) :
    (published.filter P).max? = (published'.filter P).max? := by
  refine max?_eq_of_mem_iff fun v => ?_
  rw [List.mem_filter, List.mem_filter]
  exact and_congr_left fun hv => h v (hP v hv)

theorem lastStable_congr : line.lastStable published = line.lastStable published' := by
  refine max?_filter_congr h fun v hv => ?_
  simp only [Bool.and_eq_true] at hv
  exact hv.1.1

theorem lastOfPatch_congr (selected : Version) :
    line.lastOfPatch selected published = line.lastOfPatch selected published' := by
  refine max?_filter_congr h fun v hv => ?_
  simp only [Bool.and_eq_true] at hv
  exact hv.1

/-- The verdict is about the versions of the line, as a set. -/
theorem requireAdvancement_congr (selected : Version) :
    line.requireAdvancement selected published = line.requireAdvancement selected published' := by
  unfold requireAdvancement requireNextCandidate
  rw [lastStable_congr h, lastOfPatch_congr h]
  by_cases hadmits : line.admits selected = true
  · have hcontains : published.contains selected = published'.contains selected := by
      rw [Bool.eq_iff_iff, List.contains_iff_mem, List.contains_iff_mem]
      exact h selected hadmits
    rw [hcontains]
  · rw [requireVersion, if_neg hadmits]
    rfl

end

end ReleaseLine

/-! ## Where a line stands -/

/-- The version `M.N.p` on the line, with a prerelease or without. -/
abbrev onPatch (major minor patch : Nat) (pre : Text) : Version := ⟨major, minor, patch, pre, []⟩

/-- The last stable version published on the line has patch `patch`.  Of the next patch
the candidates published are among the first `last`, and the `last` one is. -/
structure Frontier (major minor : Nat) (published : List Version) (patch last : Nat) : Prop where
  stable_mem : onPatch major minor patch [] ∈ published
  bounded : ∀ v ∈ published, (ReleaseLine.support major minor).admits v = true → v.build = [] ∧
    (v ≤ onPatch major minor patch [] ∨
      ∃ n, 0 < n ∧ n ≤ last ∧ v = onPatch major minor (patch + 1) (rc n))
  last_mem : last = 0 ∨ onPatch major minor (patch + 1) (rc last) ∈ published

/-- The stable of the next patch, and the next candidate for it. -/
def Next (major minor patch last : Nat) (v : Version) : Prop :=
  patch + 1 < 2 ^ 64 ∧ (v = onPatch major minor (patch + 1) [] ∨
    ∃ n, v = onPatch major minor (patch + 1) (rc n) ∧ 0 < n ∧ n < 2 ^ 64 ∧
      (last = 0 ∨ n = last + 1))

section
variable {major minor patch last : Nat} {published : List Version}

theorem next_iff {v : Version} : Next major minor patch last v ↔
    (ReleaseLine.support major minor).admits v = true ∧ v.build = [] ∧
      (patch + 1 < 2 ^ 64 ∧ v.patch = patch + 1) ∧ (v.pre = [] ∨
        ∃ n, v.pre = rc n ∧ 0 < n ∧ n < 2 ^ 64 ∧ (last = 0 ∨ n = last + 1)) := by
  obtain ⟨major', minor', patch', pre, build⟩ := v
  simp only [Next, Version.mk.injEq, ReleaseLine.admits_support]
  constructor
  · intro h
    obtain ⟨hroom, ⟨hmajor, hminor, hpatch, hpre, hbuild⟩ |
      ⟨n, ⟨hmajor, hminor, hpatch, hpre, hbuild⟩, hn⟩⟩ := h
    · exact ⟨⟨hmajor, hminor⟩, hbuild, ⟨hroom, hpatch⟩, .inl hpre⟩
    · exact ⟨⟨hmajor, hminor⟩, hbuild, ⟨hroom, hpatch⟩, .inr ⟨n, hpre, hn⟩⟩
  · intro h
    obtain ⟨⟨hmajor, hminor⟩, hbuild, ⟨hroom, hpatch⟩, hpre | ⟨n, hpre, hn⟩⟩ := h
    · exact ⟨hroom, .inl ⟨hmajor, hminor, hpatch, hpre, hbuild⟩⟩
    · exact ⟨hroom, .inr ⟨n, ⟨hmajor, hminor, hpatch, hpre, hbuild⟩, hn⟩⟩

theorem admits_onPatch (p : Nat) (pre : Text) :
    (ReleaseLine.support major minor).admits (onPatch major minor p pre) = true :=
  ReleaseLine.admits_support.mpr ⟨rfl, rfl⟩

theorem onPatch_lt_patch {p q : Nat} (h : p < q) (pre pre' : Text) :
    onPatch major minor p pre < onPatch major minor q pre' :=
  Version.lt_of_patch_lt rfl rfl h

theorem candidate_lt {p m n : Nat} (h : m < n) :
    onPatch major minor p (rc m) < onPatch major minor p (rc n) :=
  Version.lt_of_pre_lt rfl rfl rfl (prereleaseKey_rc_lt h)

theorem candidate_lt_stable (p n : Nat) :
    onPatch major minor p (rc n) < onPatch major minor p [] :=
  Version.lt_of_pre_lt rfl rfl rfl (prereleaseKey_lt_release (rc_ne_nil n))

namespace Frontier

variable (h : Frontier major minor published patch last)

include h

theorem lastStable : (ReleaseLine.support major minor).lastStable published =
    some (onPatch major minor patch []) := by
  refine List.max?_eq_some_iff.mpr ⟨?_, fun v hv => ?_⟩
  · exact List.mem_filter.mpr ⟨h.stable_mem, by simp [admits_onPatch]⟩
  · obtain ⟨hmem, hcond⟩ := List.mem_filter.mp hv
    simp only [Bool.and_eq_true, List.isEmpty_iff] at hcond
    obtain ⟨⟨hadmits, hpre⟩, -⟩ := hcond
    rcases (h.bounded v hmem hadmits).2 with hle | ⟨n, -, -, rfl⟩
    · exact hle
    · exact absurd hpre (rc_ne_nil n)

/-- Of the next patch there are candidates only. -/
theorem next_patch {v : Version} (hmem : v ∈ published)
    (hadmits : (ReleaseLine.support major minor).admits v = true) (hpatch : v.patch = patch + 1) :
    ∃ n, 0 < n ∧ n ≤ last ∧ v = onPatch major minor (patch + 1) (rc n) := by
  rcases (h.bounded v hmem hadmits).2 with hle | hcandidate
  · obtain ⟨hmajor, hminor⟩ := ReleaseLine.admits_support.mp hadmits
    have hle' : v.patch ≤ patch := Version.patch_le_of_le hmajor hminor hle
    omega
  · exact hcandidate

theorem lastOfPatch_none (hlast : last = 0) {v : Version} (hpatch : v.patch = patch + 1) :
    (ReleaseLine.support major minor).lastOfPatch v published = none := by
  refine List.max?_eq_none_iff.mpr (List.filter_eq_nil_iff.mpr fun w hw hcond => ?_)
  simp only [Bool.and_eq_true, beq_iff_eq] at hcond
  obtain ⟨n, hpos, hle, -⟩ := h.next_patch hw hcond.1 (hcond.2.trans hpatch)
  omega

theorem lastOfPatch_some (hlast : last ≠ 0) {v : Version} (hpatch : v.patch = patch + 1) :
    (ReleaseLine.support major minor).lastOfPatch v published =
      some (onPatch major minor (patch + 1) (rc last)) := by
  refine List.max?_eq_some_iff.mpr ⟨?_, fun w hw => ?_⟩
  · exact List.mem_filter.mpr ⟨h.last_mem.resolve_left hlast, by simp [admits_onPatch, hpatch]⟩
  · obtain ⟨hmem, hcond⟩ := List.mem_filter.mp hw
    simp only [Bool.and_eq_true, beq_iff_eq] at hcond
    obtain ⟨n, -, hle, rfl⟩ := h.next_patch hmem hcond.1 (hcond.2.trans hpatch)
    rcases Nat.lt_or_eq_of_le hle with hlt | rfl
    · exact le_of_lt (candidate_lt hlt)
    · exact le_refl _

/-- A candidate is next when no candidate precedes it, or the one before it does. -/
theorem requireNextCandidate_eq_ok {v : Version} (hpatch : v.patch = patch + 1) :
    (ReleaseLine.support major minor).requireNextCandidate v published = .ok () ↔
      ∃ n, v.pre = rc n ∧ 0 < n ∧ n < 2 ^ 64 ∧ (last = 0 ∨ n = last + 1) := by
  by_cases hlast : last = 0
  · rw [ReleaseLine.requireNextCandidate_none (h.lastOfPatch_none hlast hpatch)]
    simp only [ordinal_eq_ok, hlast, true_or, and_true]
  · rw [ReleaseLine.requireNextCandidate_some (h.lastOfPatch_some hlast hpatch)]
    constructor
    · intro hm
      obtain ⟨m, hordinal, -, hv⟩ := hm
      obtain ⟨hpre, hpos, hlt⟩ := ordinal_eq_ok.mp hv
      obtain rfl := rc_injective (ordinal_eq_ok.mp hordinal).1
      exact ⟨last + 1, hpre, hpos, hlt, .inr rfl⟩
    · intro hn
      obtain ⟨n, hpre, hpos, hlt, hstep⟩ := hn
      obtain rfl := hstep.resolve_left hlast
      exact ⟨last, ordinal_eq_ok.mpr ⟨rfl, Nat.pos_of_ne_zero hlast, Nat.lt_of_succ_lt hlt⟩, hlt,
        ordinal_eq_ok.mpr ⟨hpre, hpos, hlt⟩⟩

/-- A published version of the line is not next. -/
theorem not_next_of_mem {v : Version} (hmem : v ∈ published) : ¬Next major minor patch last v := by
  intro hnext
  obtain ⟨-, rfl | ⟨n, rfl, hpos, -, hstep⟩⟩ := hnext
  · obtain ⟨n, -, -, hv⟩ := h.next_patch hmem (admits_onPatch _ _) rfl
    exact rc_ne_nil n (congrArg Version.pre hv).symm
  · obtain ⟨m, hm, hle, hv⟩ := h.next_patch hmem (admits_onPatch _ _) rfl
    obtain rfl := rc_injective (congrArg Version.pre hv)
    omega

/-- What the line admits next. -/
theorem requireAdvancement_eq_ok {v : Version} :
    (ReleaseLine.support major minor).requireAdvancement v published = .ok () ↔
      Next major minor patch last v := by
  unfold ReleaseLine.requireAdvancement
  by_cases hadmits : (ReleaseLine.support major minor).admits v = true
  · rw [ReleaseLine.requireVersion_eq_ok.mpr hadmits, h.lastStable]
    obtain ⟨hmajor, hminor⟩ := ReleaseLine.admits_support.mp hadmits
    simp only [bind, Except.bind, reduceCtorEq, if_false]
    rw [next_iff, and_iff_right hadmits]
    by_cases hbuild : v.build = []
    · rw [if_neg (not_not_intro hbuild), and_iff_right hbuild]
      by_cases hpatch : checkedAdd patch 1 = some v.patch
      · rw [if_neg (not_not_intro hpatch), and_iff_right (ReleaseLine.checkedAdd_one_eq.mp hpatch)]
        by_cases hmem : v ∈ published
        · rw [if_pos (List.contains_iff_mem.mpr hmem)]
          refine iff_of_false error_ne_ok fun hpre => h.not_next_of_mem hmem ?_
          exact next_iff.mpr ⟨hadmits, hbuild, ReleaseLine.checkedAdd_one_eq.mp hpatch, hpre⟩
        · rw [if_neg (fun hc => hmem (List.contains_iff_mem.mp hc))]
          by_cases hpre : v.pre = []
          · rw [if_pos hpre]
            exact iff_of_true rfl (.inl hpre)
          · rw [if_neg hpre, or_iff_right hpre]
            exact h.requireNextCandidate_eq_ok (ReleaseLine.checkedAdd_one_eq.mp hpatch).2
      · rw [if_pos hpatch]
        exact iff_of_false error_ne_ok fun hnext =>
          hpatch (ReleaseLine.checkedAdd_one_eq.mpr hnext.1)
    · rw [if_pos hbuild]
      exact iff_of_false error_ne_ok fun hnext => hbuild hnext.1
  · rw [ReleaseLine.requireVersion, if_neg hadmits]
    exact iff_of_false error_ne_ok fun hnext => hadmits (next_iff.mp hnext).1

/-- The versions published on the line are below the next one. -/
theorem lt_of_next {v w : Version} (hnext : Next major minor patch last v) (hmem : w ∈ published)
    (hadmits : (ReleaseLine.support major minor).admits w = true) : w < v := by
  rcases (h.bounded w hmem hadmits).2 with hle | ⟨m, -, hm, rfl⟩
  · rcases hnext.2 with rfl | ⟨n, rfl, -⟩
    · exact lt_of_le_of_lt hle (onPatch_lt_patch (Nat.lt_succ_self _) _ _)
    · exact lt_of_le_of_lt hle (onPatch_lt_patch (Nat.lt_succ_self _) _ _)
  · rcases hnext.2 with rfl | ⟨n, rfl, hpos, -, hstep⟩
    · exact candidate_lt_stable _ _
    · exact candidate_lt (by omega)

theorem publish_stable {published' : List Version} (hmem : ∀ w, w ∈ published' ↔
    w = onPatch major minor (patch + 1) [] ∨ w ∈ published) :
    Frontier major minor published' (patch + 1) 0 where
  stable_mem := (hmem _).mpr (.inl rfl)
  bounded := by
    intro w hw hadmits
    rcases (hmem w).mp hw with rfl | hold
    · exact ⟨rfl, .inl (le_refl _)⟩
    · obtain ⟨hbuild, hbound⟩ := h.bounded w hold hadmits
      refine ⟨hbuild, .inl ?_⟩
      rcases hbound with hle | ⟨n, -, -, rfl⟩
      · exact le_trans hle (le_of_lt (onPatch_lt_patch (Nat.lt_succ_self _) _ _))
      · exact le_of_lt (candidate_lt_stable _ _)
  last_mem := .inl rfl

theorem publish_candidate {n : Nat} {published' : List Version} (hpos : 0 < n)
    (hstep : last = 0 ∨ n = last + 1) (hmem : ∀ w, w ∈ published' ↔
    w = onPatch major minor (patch + 1) (rc n) ∨ w ∈ published) :
    Frontier major minor published' patch n where
  stable_mem := (hmem _).mpr (.inr h.stable_mem)
  bounded := by
    intro w hw hadmits
    rcases (hmem w).mp hw with rfl | hold
    · exact ⟨rfl, .inr ⟨n, hpos, Nat.le_refl n, rfl⟩⟩
    · obtain ⟨hbuild, hbound⟩ := h.bounded w hold hadmits
      refine ⟨hbuild, hbound.imp_right fun hcandidate => ?_⟩
      obtain ⟨m, hm, hle, hw⟩ := hcandidate
      exact ⟨m, hm, by omega, hw⟩
  last_mem := .inr ((hmem _).mpr (.inl rfl))

end Frontier

end

/-! ## Runs -/

/-- The versions admitted one after the other, and the published ones that they lead to.
An admitted version may be added anywhere. -/
inductive Run (line : ReleaseLine) (initial : List Version) :
    List Version → List Version → Prop
  | start : Run line initial [] initial
  | step {admitted before after : List Version} {v : Version}
      (run : Run line initial admitted (before ++ after))
      (ok : line.requireAdvancement v (before ++ after) = .ok ()) :
      Run line initial (admitted ++ [v]) (before ++ v :: after)

/-- Of the versions published on the line, none has build metadata and none is above
the stable `base`. -/
structure Baseline (line : ReleaseLine) (initial : List Version) (base : Version) : Prop where
  mem : base ∈ initial
  admits : line.admits base = true
  stable : base.pre = []
  bounded : ∀ v ∈ initial, line.admits v = true → v.build = [] ∧ v ≤ base

/-- The candidates of a patch, in the order in which they were admitted. -/
def candidates (patch : Nat) (admitted : List Version) : List Text :=
  (admitted.filter fun v => v.patch == patch && !v.pre.isEmpty).map Version.pre

/-- The patches of the stable versions, in the order in which they were admitted. -/
def stables (admitted : List Version) : List Nat :=
  (admitted.filter fun v => v.pre.isEmpty).map Version.patch

/-- What the admitted versions of a run add up to. -/
structure Progression (line : ReleaseLine) (initial : List Version) (base : Version)
    (admitted : List Version) : Prop where
  on_line : ∀ v ∈ admitted, line.admits v = true
  above : ∀ v ∈ admitted, ∀ w ∈ initial, line.admits w = true → w < v
  ascending : admitted.Pairwise (· < ·)
  stables_eq : stables admitted = List.range' (base.patch + 1) (stables admitted).length
  candidates_eq : ∀ patch, ∃ first, 0 < first ∧ candidates patch admitted =
    (List.range' first (candidates patch admitted).length).map rc
  closed : admitted.Pairwise fun v w => v.pre = [] → v.patch < w.patch
  closed_initial : ∀ v ∈ admitted, ∀ w ∈ initial, line.admits w = true → w.pre = [] →
    w.patch < v.patch

section
variable {admitted : List Version} {v : Version}

theorem candidates_append_stable (h : v.pre = []) (patch : Nat) :
    candidates patch (admitted ++ [v]) = candidates patch admitted := by
  simp [candidates, h]

theorem candidates_append_ne {patch : Nat} (h : v.patch ≠ patch) :
    candidates patch (admitted ++ [v]) = candidates patch admitted := by
  simp [candidates, h]

theorem candidates_append_candidate (h : v.pre ≠ []) :
    candidates v.patch (admitted ++ [v]) = candidates v.patch admitted ++ [v.pre] := by
  simp [candidates, h]

theorem stables_append_stable (h : v.pre = []) :
    stables (admitted ++ [v]) = stables admitted ++ [v.patch] := by
  simp [stables, h]

theorem stables_append_candidate (h : v.pre ≠ []) :
    stables (admitted ++ [v]) = stables admitted := by
  simp [stables, h]

end

/-- The invariant of a run. -/
structure Tracks (major minor : Nat) (initial : List Version) (base : Version)
    (admitted published : List Version) (patch last : Nat) : Prop where
  frontier : Frontier major minor published patch last
  mem : ∀ w, w ∈ published ↔ w ∈ initial ∨ w ∈ admitted
  progression : Progression (.support major minor) initial base admitted
  patch_eq : patch = base.patch + (stables admitted).length
  later : ∀ q, patch + 1 < q → candidates q admitted = []
  latest : (last = 0 ∧ candidates (patch + 1) admitted = []) ∨ ∃ first count, 0 < first ∧
    first + count = last ∧ candidates (patch + 1) admitted = (List.range' first (count + 1)).map rc

namespace Tracks

variable {major minor patch last : Nat} {initial admitted published : List Version}
  {base v : Version} (h : Tracks major minor initial base admitted published patch last)

include h

theorem lt_of_next (hnext : Next major minor patch last v) {w : Version}
    (hw : w ∈ initial ∨ w ∈ admitted)
    (hadmits : (ReleaseLine.support major minor).admits w = true) : w < v :=
  h.frontier.lt_of_next hnext ((h.mem w).mpr hw) hadmits

theorem patch_lt_of_next (hnext : Next major minor patch last v) {w : Version}
    (hw : w ∈ initial ∨ w ∈ admitted) (hadmits : (ReleaseLine.support major minor).admits w = true)
    (hpre : w.pre = []) : w.patch < v.patch := by
  have hv : v.patch = patch + 1 := (next_iff.mp hnext).2.2.1.2
  rcases (h.frontier.bounded w ((h.mem w).mpr hw) hadmits).2 with hle | ⟨n, -, -, rfl⟩
  · obtain ⟨hmajor, hminor⟩ := ReleaseLine.admits_support.mp hadmits
    have hpatch : w.patch ≤ patch := Version.patch_le_of_le hmajor hminor hle
    omega
  · exact absurd hpre (rc_ne_nil n)

/-- What an admitted version does not add to. -/
theorem progression_append (hnext : Next major minor patch last v)
    (hstables : stables (admitted ++ [v]) =
      List.range' (base.patch + 1) (stables (admitted ++ [v])).length)
    (hcandidates : ∀ q, ∃ first, 0 < first ∧ candidates q (admitted ++ [v]) =
      (List.range' first (candidates q (admitted ++ [v])).length).map rc) :
    Progression (.support major minor) initial base (admitted ++ [v]) where
  on_line := by
    intro w hw
    rcases List.mem_append.mp hw with hold | hnew
    · exact h.progression.on_line w hold
    · obtain rfl := List.mem_singleton.mp hnew
      exact (next_iff.mp hnext).1
  above := by
    intro w hw x hx hadmits
    rcases List.mem_append.mp hw with hold | hnew
    · exact h.progression.above w hold x hx hadmits
    · obtain rfl := List.mem_singleton.mp hnew
      exact h.lt_of_next hnext (.inl hx) hadmits
  ascending := by
    refine List.pairwise_append.mpr ⟨h.progression.ascending, List.pairwise_singleton _ _, ?_⟩
    intro w hw x hx
    obtain rfl := List.mem_singleton.mp hx
    exact h.lt_of_next hnext (.inr hw) (h.progression.on_line w hw)
  stables_eq := hstables
  candidates_eq := hcandidates
  closed := by
    refine List.pairwise_append.mpr ⟨h.progression.closed, List.pairwise_singleton _ _, ?_⟩
    intro w hw x hx hpre
    obtain rfl := List.mem_singleton.mp hx
    exact h.patch_lt_of_next hnext (.inr hw) (h.progression.on_line w hw) hpre
  closed_initial := by
    intro w hw x hx hadmits hpre
    rcases List.mem_append.mp hw with hold | hnew
    · exact h.progression.closed_initial w hold x hx hadmits hpre
    · obtain rfl := List.mem_singleton.mp hnew
      exact h.patch_lt_of_next hnext (.inl hx) hadmits hpre

theorem mem_append {published' : List Version} (hmem : ∀ w, w ∈ published' ↔ w = v ∨ w ∈ published)
    (w : Version) : w ∈ published' ↔ w ∈ initial ∨ w ∈ admitted ++ [v] := by
  rw [hmem, h.mem, List.mem_append, List.mem_singleton, or_comm, or_assoc]

theorem step_stable {published' : List Version}
    (hnext : Next major minor patch last (onPatch major minor (patch + 1) []))
    (hmem : ∀ w, w ∈ published' ↔ w = onPatch major minor (patch + 1) [] ∨ w ∈ published) :
    Tracks major minor initial base (admitted ++ [onPatch major minor (patch + 1) []]) published'
      (patch + 1) 0 := by
  have hstables : stables (admitted ++ [onPatch major minor (patch + 1) []]) =
      stables admitted ++ [patch + 1] := stables_append_stable rfl
  have hcandidates : ∀ q, candidates q (admitted ++ [onPatch major minor (patch + 1) []]) =
      candidates q admitted := candidates_append_stable rfl
  refine ⟨h.frontier.publish_stable hmem, h.mem_append hmem,
    h.progression_append hnext ?_ ?_, ?_, ?_, ?_⟩
  · rw [hstables, List.length_append, List.length_singleton, List.range'_concat,
      ← h.progression.stables_eq, h.patch_eq]
    simp only [Nat.one_mul]
    congr 2
    omega
  · intro q
    rw [hcandidates]
    exact h.progression.candidates_eq q
  · rw [hstables, List.length_append, List.length_singleton, h.patch_eq, Nat.add_assoc]
  · intro q hq
    rw [hcandidates]
    exact h.later q (by omega)
  · rw [hcandidates]
    exact .inl ⟨rfl, h.later (patch + 1 + 1) (Nat.lt_succ_self _)⟩

theorem step_candidate {n : Nat} {published' : List Version}
    (hnext : Next major minor patch last (onPatch major minor (patch + 1) (rc n)))
    (hpos : 0 < n) (hstep : last = 0 ∨ n = last + 1)
    (hmem : ∀ w, w ∈ published' ↔ w = onPatch major minor (patch + 1) (rc n) ∨ w ∈ published) :
    Tracks major minor initial base (admitted ++ [onPatch major minor (patch + 1) (rc n)])
      published' patch n := by
  have hstables : stables (admitted ++ [onPatch major minor (patch + 1) (rc n)]) =
      stables admitted := stables_append_candidate (rc_ne_nil n)
  have hother : ∀ q, q ≠ patch + 1 →
      candidates q (admitted ++ [onPatch major minor (patch + 1) (rc n)]) =
        candidates q admitted := fun q hq => candidates_append_ne (Ne.symm hq)
  have hthis : candidates (patch + 1) (admitted ++ [onPatch major minor (patch + 1) (rc n)]) =
      candidates (patch + 1) admitted ++ [rc n] :=
    candidates_append_candidate (v := onPatch major minor (patch + 1) (rc n)) (rc_ne_nil n)
  -- the candidates of the next patch stay consecutive
  have hends : ∃ first count, 0 < first ∧ first + count = n ∧
      candidates (patch + 1) (admitted ++ [onPatch major minor (patch + 1) (rc n)]) =
        (List.range' first (count + 1)).map rc := by
    rw [hthis]
    rcases h.latest with ⟨-, hnone⟩ | ⟨first, count, hfirst, hlast, hsome⟩
    · exact ⟨n, 0, hpos, rfl, by rw [hnone]; rfl⟩
    · have hn : n = last + 1 := hstep.resolve_left (by omega)
      refine ⟨first, count + 1, hfirst, by omega, ?_⟩
      have hlastRc : first + 1 * (count + 1) = n := by omega
      rw [hsome, List.range'_concat (n := count + 1), List.map_append, hlastRc]
      rfl
  refine ⟨h.frontier.publish_candidate hpos hstep hmem, h.mem_append hmem,
    h.progression_append hnext ?_ ?_, ?_, ?_, .inr hends⟩
  · rw [hstables]
    exact h.progression.stables_eq
  · intro q
    by_cases hq : q = patch + 1
    · obtain ⟨first, count, hfirst, -, hlist⟩ := hends
      subst hq
      refine ⟨first, hfirst, ?_⟩
      rw [hlist, List.length_map, List.length_range']
    · rw [hother q hq]
      exact h.progression.candidates_eq q
  · rw [hstables]
    exact h.patch_eq
  · intro q hq
    rw [hother q (by omega)]
    exact h.later q hq

end Tracks

section
variable {major minor : Nat} {initial : List Version} {base : Version}
  (h : Baseline (.support major minor) initial base)

include h

theorem Baseline.base_eq : base = onPatch major minor base.patch [] := by
  obtain ⟨major', minor', patch, pre, build⟩ := base
  obtain ⟨rfl, rfl⟩ := ReleaseLine.admits_support.mp h.admits
  obtain rfl : pre = [] := h.stable
  obtain rfl : build = [] := (h.bounded _ h.mem h.admits).1
  rfl

theorem Baseline.tracks : Tracks major minor initial base [] initial base.patch 0 where
  frontier := {
    stable_mem := h.base_eq ▸ h.mem
    bounded := by
      intro v hv hadmits
      obtain ⟨hbuild, hle⟩ := h.bounded v hv hadmits
      exact ⟨hbuild, .inl (h.base_eq ▸ hle)⟩
    last_mem := .inl rfl }
  mem := by simp
  progression := {
    on_line := by simp
    above := by simp
    ascending := List.Pairwise.nil
    stables_eq := rfl
    candidates_eq := fun _ => ⟨1, Nat.one_pos, rfl⟩
    closed := List.Pairwise.nil
    closed_initial := by simp }
  patch_eq := rfl
  later := fun _ _ => rfl
  latest := .inl ⟨rfl, rfl⟩

/-- Every run keeps the invariant. -/
theorem Run.tracks {admitted published : List Version}
    (run : Run (.support major minor) initial admitted published) :
    ∃ patch last, Tracks major minor initial base admitted published patch last := by
  induction run with
  | start => exact ⟨_, _, h.tracks⟩
  | @step admitted before after v run ok ih =>
    obtain ⟨patch, last, ht⟩ := ih
    have hnext := ht.frontier.requireAdvancement_eq_ok.mp ok
    have hmem : ∀ w, w ∈ before ++ v :: after ↔ w = v ∨ w ∈ before ++ after := by
      intro w
      simp only [List.mem_append, List.mem_cons, or_left_comm]
    rcases hnext.2 with rfl | ⟨n, rfl, hpos, -, hstep⟩
    · exact ⟨_, _, ht.step_stable hnext hmem⟩
    · exact ⟨_, _, ht.step_candidate hnext hpos hstep hmem⟩

end

/-- A support line moves forward only, by its own versions, and always can. -/
theorem support_progression (major minor : Nat) (initial : List Version) (base : Version)
    (h : Baseline (.support major minor) initial base) :
    (∀ admitted published, Run (.support major minor) initial admitted published →
      Progression (.support major minor) initial base admitted ∧
      ∃ patch last, Frontier major minor published patch last ∧
        ∀ v, (ReleaseLine.support major minor).requireAdvancement v published = .ok () ↔
          Next major minor patch last v) ∧
    ∀ published published' : List Version,
      (∀ v, (ReleaseLine.support major minor).admits v = true →
        (v ∈ published ↔ v ∈ published')) →
      ∀ v, (ReleaseLine.support major minor).requireAdvancement v published =
        (ReleaseLine.support major minor).requireAdvancement v published' := by
  constructor
  · intro admitted published run
    obtain ⟨patch, last, ht⟩ := Run.tracks h run
    exact ⟨ht.progression, patch, last, ht.frontier, fun v => ht.frontier.requireAdvancement_eq_ok⟩
  · intro published published' hmem v
    exact ReleaseLine.requireAdvancement_congr hmem v

/-- `0.6.0`, `0.5.1` and `0.5.0`, of which the last two are on the line. -/
def published : List Version := [onPatch 0 6 0 [], onPatch 0 5 1 [], onPatch 0 5 0 []]

theorem baseline_published : Baseline (.support 0 5) published (onPatch 0 5 1 []) where
  mem := by decide
  admits := rfl
  stable := rfl
  bounded := by
    intro v hv hadmits
    simp only [published, List.mem_cons, List.not_mem_nil, or_false] at hv
    rcases hv with rfl | rfl | rfl
    · exact absurd hadmits (by decide)
    · exact ⟨rfl, le_refl _⟩
    · exact ⟨rfl, le_of_lt (onPatch_lt_patch (by decide) _ _)⟩

theorem support_progression_zero_five :
    Baseline (.support 0 5) published (onPatch 0 5 1 []) ∧
    ∀ admitted after, Run (.support 0 5) published admitted after →
      Progression (.support 0 5) published (onPatch 0 5 1 []) admitted :=
  ⟨baseline_published, fun admitted after run =>
    ((support_progression 0 5 published (onPatch 0 5 1 []) baseline_published).1
      admitted after run).1⟩

end Release
end YamlSigil
