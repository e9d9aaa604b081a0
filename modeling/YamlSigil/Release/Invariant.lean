/-
What the forge holds at every moment of a finalization.

Each write of a finalization keeps the invariant: tags and Releases are kept, a Release
has its tag, and Latest is the greatest main stable Release.
-/
import YamlSigil.Release.Plan

namespace YamlSigil
namespace Release

open YamlSigil.Core Control Format.SemVer

/-! ## The invariant -/

/-- What is on the forge belongs to jobs of the plan, a Release has its tag, and Latest is
the greatest main stable Release. -/
structure Inv (service : Service) (plan : Plan) (s : Forge) : Prop where
  objects : ∀ sha object, s.objects sha = some object → ∃ job : Job plan,
    sha = job.sha service ∧ object = (job.payload service).toTag sha
  refs : ∀ name object, s.refs name = some object → ∃ job : Job plan, name = refName job.tag ∧
    object = ⟨job.sha service, "tag".toList⟩ ∧
    s.objects (job.sha service) = some ((job.payload service).toTag (job.sha service))
  releases : ∀ tag release, s.releases tag = some release → ∃ job : Job plan, tag = job.tag ∧
    validateRelease release job.spec job.source = .ok () ∧ s.refs (refName tag) ≠ none
  latest : ∀ tag, s.latest = some tag → ∃ job : Job plan, job.mainStable ∧ tag = job.tag ∧
    s.releases tag ≠ none
  top : ∀ job : Job plan, job.mainStable → s.releases job.tag ≠ none →
    ∃ job' : Job plan, s.latest = some job'.tag ∧ job.key ≤ job'.key

theorem inv_empty (service : Service) (plan : Plan) : Inv service plan Forge.empty where
  objects := fun _ _ h => by cases h
  refs := fun _ _ h => by cases h
  releases := fun _ _ h => by cases h
  latest := fun _ h => by cases h
  top := fun _ _ h => absurd rfl h

/-- Nothing on the forge is lost or replaced, and Latest does not move backward. -/
structure Grows (plan : Plan) (s t : Forge) : Prop where
  objects : ∀ sha object, s.objects sha = some object → t.objects sha = some object
  refs : ∀ name object, s.refs name = some object → t.refs name = some object
  releases : ∀ tag release, s.releases tag = some release → t.releases tag = some release
  latest : ∀ job : Job plan, s.latest = some job.tag →
    ∃ job' : Job plan, t.latest = some job'.tag ∧ job.key ≤ job'.key

theorem Grows.refl (plan : Plan) (s : Forge) : Grows plan s s where
  objects := fun _ _ h => h
  refs := fun _ _ h => h
  releases := fun _ _ h => h
  latest := fun job h => ⟨job, h, le_refl _⟩

theorem Grows.trans {plan : Plan} {s t u : Forge} (h : Grows plan s t) (h' : Grows plan t u) :
    Grows plan s u where
  objects := fun sha object hs => h'.objects sha object (h.objects sha object hs)
  refs := fun name object hs => h'.refs name object (h.refs name object hs)
  releases := fun tag release hs => h'.releases tag release (h.releases tag release hs)
  latest := by
    intro job hs
    obtain ⟨job', ht, hle⟩ := h.latest job hs
    obtain ⟨job'', hu, hle'⟩ := h'.latest job' ht
    exact ⟨job'', hu, le_trans hle hle'⟩

theorem Grows.refs_ne_none {plan : Plan} {s t : Forge} (h : Grows plan s t) {name : Text}
    (hs : s.refs name ≠ none) : t.refs name ≠ none := by
  obtain ⟨object, hobject⟩ := Option.ne_none_iff_exists'.mp hs
  exact (h.refs name object hobject).trans_ne (Option.some_ne_none _)

theorem Grows.releases_ne_none {plan : Plan} {s t : Forge} (h : Grows plan s t) {tag : Text}
    (hs : s.releases tag ≠ none) : t.releases tag ≠ none := by
  obtain ⟨release, hrelease⟩ := Option.ne_none_iff_exists'.mp hs
  exact (h.releases tag release hrelease).trans_ne (Option.some_ne_none _)

/-- What each step of a finalization does. -/
def Guarantee (service : Service) (plan : Plan) (s t : Forge) : Prop :=
  Inv service plan t ∧ Grows plan s t

section
variable {service : Service} {plan : Plan} {s t : Forge}

theorem Inv.guarantee (h : Inv service plan s) : Guarantee service plan s s :=
  ⟨h, Grows.refl plan s⟩

theorem Inv.steps (h : Inv service plan s)
    (hsteps : Relation.ReflTransGen (Guarantee service plan) s t) : Inv service plan t := by
  cases hsteps with
  | refl => exact h
  | tail _ last => exact last.1

theorem Grows.steps (hsteps : Relation.ReflTransGen (Guarantee service plan) s t) :
    Grows plan s t := by
  induction hsteps with
  | refl => exact Grows.refl plan s
  | tail _ last ih => exact ih.trans last.2

end

/-! ## What one write does -/

section
variable {service : Service} {plan : Plan} {parse : Text → Option Version}
  {s : Forge} {job : Job plan}

/-- The tag object of the job. -/
def Job.object (service : Service) (job : Job plan) : AnnotatedTag :=
  (job.payload service).toTag (job.sha service)

theorem update_eq_some {α : Type} {f : Text → Option α} {key key' : Text} {a b : α}
    (h : Function.update f key (some a) key' = some b) :
    (key' = key ∧ b = a) ∨ (key' ≠ key ∧ f key' = some b) := by
  by_cases hkey : key' = key
  · rw [hkey, Function.update_self] at h
    exact .inl ⟨hkey, (Option.some.inj h).symm⟩
  · rw [Function.update_of_ne hkey] at h
    exact .inr ⟨hkey, h⟩

theorem update_ne_none {α : Type} {f : Text → Option α} {key key' : Text} {a : α}
    (h : f key' ≠ none) : Function.update f key (some a) key' ≠ none := by
  by_cases hkey : key' = key
  · rw [hkey, Function.update_self]
    exact Option.some_ne_none a
  · rw [Function.update_of_ne hkey]
    exact h

theorem update_of_eq_none {α : Type} {f : Text → Option α} {key key' : Text} {a b : α}
    (hnone : f key = none) (h : f key' = some b) :
    Function.update f key (some a) key' = some b := by
  have hkey : key' ≠ key := by
    rintro rfl
    rw [hnone] at h
    cases h
  rw [Function.update_of_ne hkey, h]

section
variable (h : Inv service plan s)

include h

/-- A tag object of the plan that is there is the one of the job. -/
theorem Inv.object_eq (sound : plan.Sound service parse) {object : AnnotatedTag}
    (hobject : s.objects (job.sha service) = some object) : object = job.object service := by
  obtain ⟨job', hsha, rfl⟩ := h.objects _ _ hobject
  rw [Job.object, sound.payload_eq job job' hsha]

theorem Inv.createTag (sound : plan.Sound service parse) (job : Job plan) :
    ∃ t, service.createTag (job.payload service) s = (.ok (job.object service), t) ∧
      t.objects (job.sha service) = some (job.object service) ∧
      t.refs = s.refs ∧ Guarantee service plan s t := by
  unfold Service.createTag
  cases hobject : s.objects (service.objectSha (job.payload service)) with
  | some object =>
    obtain rfl := h.object_eq sound hobject
    exact ⟨s, rfl, hobject, rfl, h.guarantee⟩
  | none =>
    refine ⟨_, rfl, Forge.putObject_self _ _ _, rfl, ?_, ?_⟩
    · refine ⟨?_, ?_, h.releases, h.latest, h.top⟩
      · intro sha object hs
        rcases update_eq_some hs with ⟨rfl, rfl⟩ | ⟨-, hs⟩
        · exact ⟨job, rfl, rfl⟩
        · exact h.objects sha object hs
      · intro name object hs
        obtain ⟨job', hname, heq, hs'⟩ := h.refs name object hs
        exact ⟨job', hname, heq, update_of_eq_none hobject hs'⟩
    · refine ⟨?_, fun _ _ hs => hs, fun _ _ hs => hs, fun job hs => ⟨job, hs, le_refl _⟩⟩
      intro sha object hs
      exact update_of_eq_none hobject hs

/-- The reference of the job, once its tag object is there. -/
theorem Inv.createRef (hobject : s.objects (job.sha service) = some (job.object service))
    (hnone : s.refs (refName job.tag) = none) :
    ∃ t, Service.createRef (refName job.tag) (job.sha service) s =
      (.ok ⟨refName job.tag, ⟨job.sha service, "tag".toList⟩⟩, t) ∧
      t.refs (refName job.tag) ≠ none ∧ Guarantee service plan s t := by
  have hgit : s.gitObject (job.sha service) = ⟨job.sha service, "tag".toList⟩ := by
    rw [Forge.gitObject, hobject]
    rfl
  refine ⟨s.putRef (refName job.tag) (s.gitObject (job.sha service)), ?_, ?_, ?_, ?_⟩
  · unfold Service.createRef
    rw [hnone, hgit]
  · exact (Forge.putRef_self _ _ _).trans_ne (Option.some_ne_none _)
  · refine ⟨h.objects, ?_, ?_, h.latest, h.top⟩
    · intro name object hs
      rcases update_eq_some hs with ⟨rfl, rfl⟩ | ⟨-, hs⟩
      · exact ⟨job, rfl, hgit, hobject⟩
      · exact h.refs name object hs
    · intro tag release hs
      obtain ⟨job', htag, hvalid, href⟩ := h.releases tag release hs
      exact ⟨job', htag, hvalid, update_ne_none href⟩
  · exact ⟨fun _ _ hs => hs, fun name object hs => update_of_eq_none hnone hs,
      fun _ _ hs => hs, fun job hs => ⟨job, hs, le_refl _⟩⟩

end

/-- The Release of the job moves Latest forward. -/
def Job.advances (job : Job plan) (s : Forge) : Prop :=
  job.mainStable ∧ ∀ job' : Job plan, s.latest = some job'.tag → job'.key < job.key

theorem validateRelease_toRelease (spec : ReleaseSpec) (source makeLatest : Text) {id : Nat}
    (h : id ≠ 0) :
    validateRelease ((releasePayload spec source makeLatest).toRelease id) spec source =
      .ok () := by
  simp [validateRelease, releasePayload, ReleasePayload.toRelease, h]

theorem validateRelease_eq_ok {release : Release} {spec : ReleaseSpec} {source : Text}
    (h : validateRelease release spec source = .ok ()) :
    release.id ≠ 0 ∧ release.tagName = spec.tag := by
  unfold validateRelease at h
  split at h
  · cases h
  · next hnot =>
    simp only [not_or, ne_eq, not_not] at hnot
    exact ⟨hnot.1, hnot.2.1⟩

theorem le_latest_of_not_advances (hstable : job.mainStable) (hadvance : ¬job.advances s) :
    ∃ job' : Job plan, s.latest = some job'.tag ∧ job.key ≤ job'.key := by
  by_contra hnone
  refine hadvance ⟨hstable, fun job' hlatest => ?_⟩
  exact lt_of_not_ge fun hle => hnone ⟨job', hlatest, hle⟩

section
variable {makeLatest : Text} {release : Release}
  (hmake : makeLatest = "true".toList ↔ job.advances s)

include hmake

theorem latest_of_advances (hadvance : job.advances s) :
    (s.putRelease (releasePayload job.spec job.source makeLatest) release).latest =
      some job.tag := if_pos (hmake.mpr hadvance)

theorem latest_of_not_advances (hadvance : ¬job.advances s) :
    (s.putRelease (releasePayload job.spec job.source makeLatest) release).latest = s.latest :=
  if_neg fun h => hadvance (hmake.mp h)

variable (sound : plan.Sound service parse) (h : Inv service plan s)
  (hnone : s.releases job.tag = none)

theorem latest_putRelease (release : Release) (job₀ : Job plan)
    (hlatest : s.latest = some job₀.tag) : ∃ job' : Job plan,
      (s.putRelease (releasePayload job.spec job.source makeLatest) release).latest =
        some job'.tag ∧ job₀.key ≤ job'.key := by
  by_cases hadvance : job.advances s
  · exact ⟨job, latest_of_advances hmake hadvance, le_of_lt (hadvance.2 job₀ hlatest)⟩
  · exact ⟨job₀, (latest_of_not_advances hmake hadvance).trans hlatest, le_refl _⟩

include sound h hnone

/-- A Release that moves Latest exactly when it is ahead keeps the invariant. -/
theorem Inv.putRelease (href : s.refs (refName job.tag) ≠ none)
    (hvalid : validateRelease release job.spec job.source = .ok ()) :
    Guarantee service plan s
      (s.putRelease (releasePayload job.spec job.source makeLatest) release) := by
  have hkept : ∀ tag release', s.releases tag = some release' →
      (s.putRelease (releasePayload job.spec job.source makeLatest) release).releases tag =
        some release' := fun tag release' hs => update_of_eq_none hnone hs
  have hself : (s.putRelease (releasePayload job.spec job.source makeLatest) release).releases
      job.tag = some release := Forge.putRelease_self _ _ _
  refine ⟨⟨h.objects, h.refs, ?_, ?_, ?_⟩, fun _ _ hs => hs, fun _ _ hs => hs, hkept,
    latest_putRelease hmake release⟩
  · intro tag release' hs
    rcases update_eq_some hs with ⟨rfl, rfl⟩ | ⟨-, hs⟩
    · exact ⟨job, rfl, hvalid, href⟩
    · exact h.releases tag release' hs
  · intro tag hlatest
    by_cases hadvance : job.advances s
    · rw [latest_of_advances hmake hadvance] at hlatest
      cases hlatest
      exact ⟨job, hadvance.1, rfl, hself.trans_ne (Option.some_ne_none _)⟩
    · rw [latest_of_not_advances hmake hadvance] at hlatest
      obtain ⟨job', hstable, htag, hrelease⟩ := h.latest tag hlatest
      exact ⟨job', hstable, htag, update_ne_none hrelease⟩
  · intro job₀ hstable hrelease
    by_cases htag : job₀.tag = job.tag
    · obtain rfl := Job.tag_injective sound htag
      by_cases hadvance : job₀.advances s
      · exact ⟨job₀, latest_of_advances hmake hadvance, le_refl _⟩
      · rw [latest_of_not_advances hmake hadvance]
        exact le_latest_of_not_advances hstable hadvance
    · have hold : s.releases job₀.tag ≠ none := by
        rwa [Forge.putRelease_of_ne _ _ htag] at hrelease
      obtain ⟨job', hlatest, hle⟩ := h.top job₀ hstable hold
      obtain ⟨job'', hlatest', hle'⟩ := latest_putRelease hmake release job' hlatest
      exact ⟨job'', hlatest', le_trans hle hle'⟩

end

/-- What is read for Latest, where the plan keeps the forge. -/
theorem Inv.latestRelease_eq (h : Inv service plan s) {latest : Latest}
    (hlatest : s.latestRelease = some latest) : ∃ job : Job plan, job.mainStable ∧
      s.latest = some job.tag ∧ latest.tagName = job.tag ∧ latest.id ≠ 0 := by
  obtain ⟨release, hrelease, rfl⟩ := Option.map_eq_some_iff.mp hlatest
  obtain ⟨tag, htag, hrelease⟩ := Option.bind_eq_some_iff.mp hrelease
  obtain ⟨job, hstable, rfl, -⟩ := h.latest tag htag
  obtain ⟨job', heq, hvalid, -⟩ := h.releases job.tag release hrelease
  have hfields := validateRelease_eq_ok hvalid
  exact ⟨job, hstable, htag, hfields.2.trans heq.symm, hfields.1⟩

end

end Release
end YamlSigil
