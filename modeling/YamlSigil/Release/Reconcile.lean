/-
The parts of a finalization against the forge.

Every part keeps the invariant step by step, whether its writes take effect and report
an error or not.  Where no write fails, no part fails.
-/
import YamlSigil.Release.Invariant

namespace YamlSigil
namespace Release

open YamlSigil.Core Control Format.SemVer

/-! ## What each part of a finalization does -/

/-- The steps of a program keep the guarantee, its values satisfy `ok` and its errors `err`. -/
abbrev Meets (service : Service) (plan : Plan) (mayFail : Prop) {α : Type} (ok : α → Forge → Prop)
    (err : Forge → Prop) (p : Forging α) (s : Forge) : Prop :=
  Dialogue.Tries (service.world mayFail) (Guarantee service plan) ok err p s

section
variable {service : Service} {plan : Plan} {parse : Text → Option Version} {mayFail : Prop}
  {s : Forge} {err : Forge → Prop} {job : Job plan}

theorem meets_read {q : Request} {r : Response q} (hread : q.writes = false)
    (hparty : service.party q s = (.ok r, s)) (hs : Guarantee service plan s s) :
    Meets service plan mayFail (fun r' t => r' = r ∧ t = s) err (call q) s := by
  intro a t hworld
  rcases hworld with heq | ⟨-, hwrites, -⟩
  · rw [hparty] at heq
    cases heq
    exact ⟨hs, rfl, rfl⟩
  · rw [hread] at hwrites
    cases hwrites

theorem meets_read_error {q : Request} (hread : q.writes = false)
    (hparty : ∃ e, service.party q s = (.error e, s)) (hs : Guarantee service plan s s)
    (herr : err s) : Meets service plan mayFail (fun _ _ => False) err (call q) s := by
  intro a t hworld
  obtain ⟨e, hparty⟩ := hparty
  rcases hworld with heq | ⟨-, hwrites, -⟩
  · rw [hparty] at heq
    cases heq
    exact ⟨hs, herr⟩
  · rw [hread] at hwrites
    cases hwrites

/-- A write takes effect or, where it may fail, not, and its error leaves either state. -/
theorem meets_write {q : Request} {r : Response q} {t : Forge}
    (hparty : service.party q s = (.ok r, t)) (hs : Guarantee service plan s s)
    (ht : Guarantee service plan s t) (herr : mayFail → err s ∧ err t) :
    Meets service plan mayFail (fun r' t' => r' = r ∧ (t' = t ∨ mayFail ∧ t' = s)) err
      (call q) s := by
  intro a t' hworld
  rcases hworld with heq | ⟨hfail, -, hstate, hanswer⟩
  · rw [hparty] at heq
    cases heq
    exact ⟨ht, rfl, .inl rfl⟩
  · rw [hparty] at hstate hanswer
    have hG : Guarantee service plan s t' := by
      rcases hstate with rfl | rfl
      · exact hs
      · exact ht
    refine ⟨hG, ?_⟩
    rcases hanswer with rfl | ⟨e, rfl⟩
    · exact ⟨rfl, hstate.symm.imp_right fun heq => ⟨hfail, heq⟩⟩
    · rcases hstate with rfl | rfl
      · exact (herr hfail).1
      · exact (herr hfail).2

theorem meets_liftExcept {α : Type} {r : Except Text α} {a : α} (hr : r = .ok a) :
    Meets service plan mayFail (fun a' t => a' = a ∧ t = s) err (liftExcept r) s := by
  subst hr
  exact ⟨rfl, rfl⟩

theorem meets_rebind (source main : Text) (h : Inv service plan s) :
    Meets service plan mayFail (fun _ t => t = s) err (call (.rebind source main)) s :=
  Dialogue.Tries.mono (meets_read (q := .rebind source main) (r := ()) rfl rfl h.guarantee)
    fun _ _ hr => hr.2

/-! ### Latest -/

variable (sound : plan.Sound service parse) (h : Inv service plan s)

include sound h

theorem Inv.readLatest : Meets service plan mayFail (fun r t => r = s.latestRelease ∧ t = s) err
    (readLatest parse) s := by
  have hcanonical : requireCanonical parse s.latestRelease = .ok () := by
    cases hlatest : s.latestRelease with
    | none => rfl
    | some latest =>
      obtain ⟨job', hstable, -, htag, hid⟩ := h.latestRelease_eq hlatest
      unfold requireCanonical
      simp only [htag, job'.releaseOrder_eq sound]
      refine if_neg ?_
      rintro (hzero | hpre | hbuild)
      · exact hid hzero
      · exact hpre hstable.2
      · exact hbuild (job'.build_eq sound)
  refine Dialogue.Tries.bind (meets_read rfl rfl h.guarantee) ?_
  rintro r t ⟨rfl, rfl⟩ -
  refine Dialogue.Tries.bind (meets_liftExcept hcanonical) ?_
  rintro r t ⟨-, rfl⟩ -
  exact Dialogue.tries_pure ⟨rfl, rfl⟩

omit sound in
theorem Inv.latestRelease_of_some {tag : Text} (hlatest : s.latest = some tag) :
    ∃ latest, s.latestRelease = some latest ∧ latest.tagName = tag := by
  obtain ⟨job', -, -, hrelease⟩ := h.latest tag hlatest
  obtain ⟨release, hrelease⟩ := Option.ne_none_iff_exists'.mp hrelease
  obtain ⟨job'', rfl, hvalid, -⟩ := h.releases tag release hrelease
  refine ⟨⟨release.id, release.tagName⟩, ?_, (validateRelease_eq_ok hvalid).2⟩
  rw [Forge.latestRelease, hlatest]
  simp only [Option.bind_some, hrelease, Option.map_some]

/-- A guard advances Latest when the Release of the job does. -/
theorem Inv.advances (job : Job plan) :
    ∃ advance, Guard.advances parse job.spec.line (job.version, job.ordinal) s.latestRelease =
      .ok advance ∧ (advance = true ↔ job.advances s) := by
  unfold Guard.advances Job.advances
  have hline : job.spec.line.makeLatest job.version = true ↔ job.mainStable := by
    simp [ReleaseLine.makeLatest, Job.mainStable, Job.spec]
  by_cases hstable : job.mainStable
  · rw [if_pos (hline.mpr hstable), and_iff_right hstable]
    cases hlatest : s.latestRelease with
    | none =>
      refine ⟨true, rfl, iff_of_true rfl fun job' hjob' => ?_⟩
      obtain ⟨latest, hsome, -⟩ := h.latestRelease_of_some hjob'
      rw [hlatest] at hsome
      cases hsome
    | some latest =>
      obtain ⟨job', -, hjob', htag, -⟩ := h.latestRelease_eq hlatest
      refine ⟨decide (job'.key < job.key), ?_, ?_⟩
      · simp only [htag, job'.releaseOrder_eq sound]
        rfl
      · rw [decide_eq_true_iff]
        refine ⟨fun hlt job'' hjob'' => ?_, fun hall => hall job' hjob'⟩
        rw [hjob'] at hjob''
        obtain rfl := Job.tag_injective sound (Option.some.inj hjob'')
        exact hlt
  · rw [if_neg fun hmake => hstable (hline.mp hmake)]
    exact ⟨false, rfl, iff_of_false Bool.false_ne_true fun hadvance => hstable hadvance.1⟩

/-- What a guard of the job knows. -/
structure Guards (guard : Guard) (job : Job plan) (s : Forge) : Prop where
  before : guard.before = s.latestRelease
  target : guard.target = job.tag
  advance : guard.advance = true ↔ job.advances s

theorem Inv.capture : Meets service plan mayFail (fun guard t => Guards guard job s ∧ t = s) err
    (Guard.capture parse job.spec.line job.tag) s := by
  have hunheld : Guard.requireUnheld job.spec.line job.tag s.latestRelease = .ok () := by
    refine if_neg fun hheld => ?_
    obtain ⟨latest, hlatest, htag⟩ := Option.map_eq_some_iff.mp hheld.2
    obtain ⟨job', hstable, -, htag', -⟩ := h.latestRelease_eq hlatest
    obtain rfl := Job.tag_injective sound (htag'.symm.trans htag)
    exact hheld.1 hstable.1
  obtain ⟨advance, hok, hadvance⟩ := h.advances sound job
  refine Dialogue.Tries.bind (meets_liftExcept (job.releaseOrder_eq sound)) ?_
  rintro target t ⟨rfl, rfl⟩ -
  refine Dialogue.Tries.bind (h.readLatest sound) ?_
  rintro before t ⟨rfl, rfl⟩ -
  refine Dialogue.Tries.bind (meets_liftExcept hunheld) ?_
  rintro r t ⟨-, rfl⟩ -
  refine Dialogue.Tries.bind (meets_liftExcept hok) ?_
  rintro r t ⟨rfl, rfl⟩ -
  exact Dialogue.tries_pure ⟨⟨rfl, rfl, hadvance⟩, rfl⟩

theorem Inv.requireUnchanged {guard : Guard} (hbefore : guard.before = s.latestRelease) :
    Meets service plan mayFail (fun _ t => t = s) err (guard.requireUnchanged parse) s := by
  refine Dialogue.Tries.bind (h.readLatest sound) ?_
  rintro before t ⟨rfl, rfl⟩ -
  rw [if_neg (not_not_intro hbefore.symm)]
  exact Dialogue.tries_pure rfl

theorem Inv.verify {guard : Guard} (hintended : guard.isIntended s.latestRelease = false → err s) :
    Meets service plan mayFail (fun _ t => t = s) err (guard.verify parse) s := by
  refine Dialogue.Tries.bind (h.readLatest sound) ?_
  rintro after t ⟨rfl, rfl⟩ -
  cases hcase : guard.isIntended t.latestRelease with
  | true => exact Dialogue.tries_pure rfl
  | false => exact Dialogue.tries_throw (hintended hcase)

/-! ### Tags -/

omit sound h in
theorem validateTagRef_eq : validateTagRef ⟨refName job.tag, ⟨job.sha service, "tag".toList⟩⟩
    job.spec = .ok (job.sha service) := by
  unfold validateTagRef
  rw [if_neg (by simp [Job.spec]), Job.sha, service.requireSha_objectSha]
  rfl

omit sound h in
theorem validateTag_eq : validateTag (job.object service) job.spec job.source (job.date service)
    (job.sha service) = .ok () :=
  if_neg (by simp [Job.object, TagPayload.toTag, Job.payload, tagPayload])

theorem Inv.ref_eq {object : GitObject} (href : s.refs (refName job.tag) = some object) :
    object = ⟨job.sha service, "tag".toList⟩ ∧
      s.objects (job.sha service) = some (job.object service) := by
  obtain ⟨job', hname, hobject, hkept⟩ := h.refs _ _ href
  obtain rfl := Job.tag_injective sound (List.append_cancel_left hname)
  exact ⟨hobject, hkept⟩

omit sound in
theorem Inv.readObject (hobject : s.objects (job.sha service) = some (job.object service)) :
    Meets service plan mayFail (fun r t => r = job.object service ∧ t = s) err
      (call (.tagObject (job.sha service))) s :=
  meets_read rfl (service.party_tagObject_some hobject) h.guarantee

theorem Inv.inspectTag : Meets service plan mayFail
    (fun r t => t = s ∧ (r = none ∧ s.refs (refName job.tag) = none ∨
      r = some (job.sha service) ∧ s.refs (refName job.tag) ≠ none)) err
    (inspectTag job.spec job.source (job.date service)) s := by
  refine Dialogue.Tries.bind (meets_read rfl rfl h.guarantee) ?_
  rintro r t ⟨rfl, rfl⟩ -
  cases href : t.refs (refName job.tag) with
  | none =>
    rw [show job.spec.tag = job.tag from rfl, href]
    exact Dialogue.tries_pure ⟨rfl, .inl ⟨rfl, rfl⟩⟩
  | some object =>
    obtain ⟨rfl, hobject⟩ := h.ref_eq sound href
    rw [show job.spec.tag = job.tag from rfl, href]
    refine Dialogue.Tries.bind (meets_liftExcept validateTagRef_eq) ?_
    rintro r t ⟨rfl, rfl⟩ -
    refine Dialogue.Tries.bind (h.readObject hobject) ?_
    rintro r t ⟨rfl, rfl⟩ -
    refine Dialogue.Tries.bind (meets_liftExcept validateTag_eq) ?_
    rintro r t ⟨-, rfl⟩ -
    exact Dialogue.tries_pure ⟨rfl, .inr ⟨rfl, Option.some_ne_none _⟩⟩

theorem Inv.requireExactTagObject (habsent : s.refs (refName job.tag) = none → err s) :
    Meets service plan mayFail (fun _ t => t = s ∧ s.refs (refName job.tag) ≠ none) err
      (requireExactTagObject job.spec job.source (job.date service) (job.sha service)) s := by
  refine Dialogue.Tries.bind (h.inspectTag sound) ?_
  rintro r t ⟨rfl, hr⟩ -
  rcases hr with ⟨rfl, hnone⟩ | ⟨rfl, hsome⟩
  · rw [if_pos (Option.some_ne_none _).symm]
    exact Dialogue.tries_throw (habsent hnone)
  · rw [if_neg (not_not_intro rfl)]
    exact Dialogue.tries_pure ⟨rfl, hsome⟩

theorem Inv.createTagObject (main : Text) : Meets service plan mayFail
    (fun r t => r = job.object service ∧ t.refs = s.refs ∧
      t.objects (job.sha service) = some (job.object service)) (fun _ => mayFail)
    (createTagObject job.spec job.source main (job.date service)) s := by
  obtain ⟨created, hparty, hobject, hrefs, hcreated⟩ := h.createTag sound job
  refine Dialogue.Tries.bind (meets_rebind job.source main h) ?_
  rintro r t rfl -
  refine Dialogue.Tries.bind (meets_write hparty h.guarantee hcreated fun hfail =>
    ⟨hfail, hfail⟩) ?_
  rintro r t' ⟨rfl, ht'⟩ hsteps
  have hinv : Inv service plan t' := h.steps hsteps
  refine Dialogue.Tries.bind (meets_liftExcept (service.requireSha_objectSha _ _)) ?_
  rintro r t'' ⟨-, rfl⟩ -
  refine Dialogue.Tries.bind (meets_liftExcept validateTag_eq) ?_
  rintro r t'' ⟨-, rfl⟩ -
  cases hread : t''.objects (job.sha service) with
  | none =>
    -- the write was lost, and its response was not
    have hlost : mayFail := by
      rcases ht' with rfl | ⟨hfail, -⟩
      · rw [hobject] at hread
        cases hread
      · exact hfail
    exact Dialogue.Tries.bind (meets_read_error rfl (service.party_tagObject_none hread)
      hinv.guarantee hlost) fun _ _ hfalse => hfalse.elim
  | some object =>
    obtain rfl := hinv.object_eq sound hread
    refine Dialogue.Tries.bind (hinv.readObject hread) ?_
    rintro r t' ⟨rfl, rfl⟩ -
    refine Dialogue.Tries.bind (meets_liftExcept validateTag_eq) ?_
    rintro r t'' ⟨-, rfl⟩ -
    refine Dialogue.tries_pure ⟨rfl, ?_, hread⟩
    rcases ht' with rfl | ⟨-, rfl⟩
    · exact hrefs
    · rfl

theorem Inv.createTagRef (main : Text)
    (hobject : s.objects (job.sha service) = some (job.object service))
    (hnone : s.refs (refName job.tag) = none) : Meets service plan mayFail
      (fun _ t => t.refs (refName job.tag) = none → mayFail) (fun _ => mayFail)
      (createTagRef job.spec job.source main (job.date service) (job.sha service)) s := by
  obtain ⟨created, hparty, hcreatedRef, hcreated⟩ := h.createRef hobject hnone
  have hcall : Meets service plan mayFail _ (fun _ => mayFail)
      (call (.createRef (refName job.tag) (job.sha service))) s :=
    meets_write hparty h.guarantee hcreated fun hfail => ⟨hfail, hfail⟩
  refine Dialogue.Tries.bind (meets_rebind job.source main h) ?_
  rintro r t rfl -
  refine Dialogue.Tries.bind hcall.attempt ?_
  rintro r t' hr hsteps
  cases r with
  | ok reference =>
    obtain ⟨rfl, ht'⟩ := hr
    refine Dialogue.Tries.bind (meets_liftExcept validateTagRef_eq) ?_
    rintro r t'' ⟨rfl, rfl⟩ -
    rw [if_neg (not_not_intro rfl)]
    refine Dialogue.tries_pure fun habsent => ?_
    rcases ht' with rfl | ⟨hfail, -⟩
    · exact absurd habsent hcreatedRef
    · exact hfail
  | error e =>
    have hfail : mayFail := hr
    have hexact : Meets service plan mayFail _ (fun _ => mayFail)
        (Release.requireExactTagObject job.spec job.source (job.date service) (job.sha service))
        t' :=
      (h.steps hsteps).requireExactTagObject sound fun _ => hfail
    refine Dialogue.Tries.bind hexact.attempt ?_
    rintro r t'' hr -
    cases r with
    | ok r => exact Dialogue.tries_pure fun _ => hfail
    | error e => exact Dialogue.tries_throw hfail

/-- Reconciliation leaves the tag of the job on the forge. -/
theorem Inv.reconcileTag (main : Text) : Meets service plan mayFail
    (fun r t => r = job.sha service ∧ t.refs (refName job.tag) ≠ none) (fun _ => mayFail)
    (reconcileTag job.spec job.source main (job.date service)) s := by
  refine Dialogue.Tries.bind (h.inspectTag sound) ?_
  rintro r t ⟨rfl, hr⟩ -
  rcases hr with ⟨rfl, hnone⟩ | ⟨rfl, hsome⟩
  · refine Dialogue.Tries.bind (h.createTagObject sound main) ?_
    rintro r t' ⟨rfl, hrefs, hobject⟩ hsteps
    have hinv : Inv service plan t' := h.steps hsteps
    refine Dialogue.Tries.bind (hinv.createTagRef sound main hobject (by rw [hrefs, hnone])) ?_
    intro _ t'' hlost hsteps'
    refine Dialogue.Tries.bind ((hinv.steps hsteps').requireExactTagObject sound hlost) ?_
    rintro r u ⟨rfl, hsome⟩ -
    exact Dialogue.tries_pure ⟨rfl, hsome⟩
  · exact Dialogue.tries_pure ⟨rfl, hsome⟩

/-! ### Releases -/

theorem Inv.inspectRelease : Meets service plan mayFail
    (fun r t => t = s ∧ r = (s.releases job.tag).isSome) err
    (inspectRelease job.spec job.source) s := by
  refine Dialogue.Tries.bind (meets_read rfl rfl h.guarantee) ?_
  rintro r t ⟨rfl, rfl⟩ -
  rw [show job.spec.tag = job.tag from rfl]
  cases hrelease : t.releases job.tag with
  | none => exact Dialogue.tries_pure ⟨rfl, rfl⟩
  | some release =>
    obtain ⟨job', htag, hvalid, -⟩ := h.releases _ _ hrelease
    obtain rfl := Job.tag_injective sound htag
    refine Dialogue.Tries.bind (meets_liftExcept hvalid) ?_
    rintro r t ⟨-, rfl⟩ -
    exact Dialogue.tries_pure ⟨rfl, rfl⟩

omit sound h in
theorem Guards.requestValue {guard : Guard} (hguard : Guards guard job s) :
    guard.requestValue = "true".toList ↔ job.advances s := by
  rw [← hguard.advance]
  unfold Guard.requestValue
  cases guard.advance with
  | true => exact iff_of_true rfl rfl
  | false => exact iff_of_false (by decide) (by decide)

omit sound in
/-- The guard finds what it intends once the Release of the job is there. -/
theorem Inv.isIntended_putRelease {guard : Guard} (hguard : Guards guard job s)
    (release : Release) (htag : release.tagName = job.tag) (hnone : s.releases job.tag = none) :
    guard.isIntended (s.putRelease (releasePayload job.spec job.source guard.requestValue)
      release).latestRelease = true := by
  unfold Guard.isIntended Forge.latestRelease
  cases hadvance : guard.advance with
  | true =>
    rw [latest_of_advances hguard.requestValue (hguard.advance.mp hadvance), Option.bind_some]
    have hself : (s.putRelease (releasePayload job.spec job.source guard.requestValue)
        release).releases job.tag = some release := Forge.putRelease_self _ _ _
    rw [hself]
    simp [htag, hguard.target]
  | false =>
    have hnot : ¬job.advances s := fun hadv => by
      rw [hguard.advance.mpr hadv] at hadvance
      cases hadvance
    rw [latest_of_not_advances hguard.requestValue hnot, hguard.before]
    have hsame : s.latest.bind (s.putRelease (releasePayload job.spec job.source
        guard.requestValue) release).releases = s.latest.bind s.releases := by
      cases hlatest : s.latest with
      | none => rfl
      | some tag =>
        obtain ⟨-, -, -, hrelease⟩ := h.latest tag hlatest
        refine Forge.putRelease_of_ne _ _ fun heq => hrelease ?_
        rw [heq]
        exact hnone
    rw [hsame]
    simp [Forge.latestRelease]

theorem Inv.publish {guard : Guard} (hguard : Guards guard job s)
    (href : s.refs (refName job.tag) ≠ none) (hnone : s.releases job.tag = none) :
    ∃ release t, service.createRelease
        (releasePayload job.spec job.source guard.requestValue) s = (.ok release, t) ∧
      validateRelease release job.spec job.source = .ok () ∧ t.releases job.tag ≠ none ∧
      guard.isIntended t.latestRelease = true ∧ Guarantee service plan s t := by
  have hvalid := validateRelease_toRelease job.spec job.source guard.requestValue
    (service.releaseId_ne_zero s (releasePayload job.spec job.source guard.requestValue))
  refine ⟨_, _, ?_, hvalid, ?_, h.isIntended_putRelease hguard _ rfl hnone,
    h.putRelease hguard.requestValue sound hnone href hvalid⟩
  · unfold Service.createRelease
    rw [show (releasePayload job.spec job.source guard.requestValue).tagName = job.tag from rfl,
      hnone]
  · exact (Forge.putRelease_self _ _ _).trans_ne (Option.some_ne_none _)

/-- A created Release is there and Latest is what the guard intends, or the write was lost. -/
theorem Inv.createRelease (main : Text) {guard : Guard} (hguard : Guards guard job s)
    (href : s.refs (refName job.tag) ≠ none) (hnone : s.releases job.tag = none) :
    Meets service plan mayFail
      (fun _ t => t.refs (refName job.tag) ≠ none ∧
        (t.releases job.tag = none → mayFail) ∧
        (t.releases job.tag ≠ none → guard.isIntended t.latestRelease = true))
      (fun _ => mayFail)
      (createRelease parse job.spec job.source main (job.date service) (job.sha service) guard)
      s := by
  obtain ⟨release, created, hparty, hvalid, hrelease, hintended, hcreated⟩ :=
    h.publish sound hguard href hnone
  have hcall : Meets service plan mayFail _ (fun t => mayFail ∧ (t = created ∨ t = s))
      (call (.createRelease (releasePayload job.spec job.source guard.requestValue))) s :=
    meets_write hparty h.guarantee hcreated fun hfail =>
      ⟨⟨hfail, .inr rfl⟩, ⟨hfail, .inl rfl⟩⟩
  refine Dialogue.Tries.bind (meets_rebind job.source main h) ?_
  rintro r t rfl -
  refine Dialogue.Tries.bind (h.requireExactTagObject sound fun habsent => absurd habsent href) ?_
  rintro r t ⟨rfl, -⟩ -
  refine Dialogue.Tries.bind (h.requireUnchanged sound hguard.before) ?_
  rintro r t rfl -
  refine Dialogue.Tries.bind hcall.attempt ?_
  rintro r t' hr hsteps
  have hinv : Inv service plan t' := h.steps hsteps
  have href' : t'.refs (refName job.tag) ≠ none := (Grows.steps hsteps).refs_ne_none href
  -- the write took effect, or it was lost
  have hwritten : ∀ u, u = created ∨ mayFail ∧ u = t → (u.releases job.tag = none → mayFail) ∧
      (u.releases job.tag ≠ none → guard.isIntended u.latestRelease = true) := by
    rintro u (rfl | ⟨hfail, rfl⟩)
    · exact ⟨fun habsent => absurd habsent hrelease, fun _ => hintended⟩
    · exact ⟨fun _ => hfail, fun hpresent => absurd hnone hpresent⟩
  cases r with
  | ok r =>
    obtain ⟨rfl, ht'⟩ := hr
    refine Dialogue.Tries.mono (meets_liftExcept hvalid) ?_
    rintro r u ⟨-, rfl⟩
    exact ⟨href', hwritten u ht'⟩
  | error e =>
    obtain ⟨hfail, ht'⟩ := hr
    refine Dialogue.Tries.bind (hinv.inspectRelease sound) ?_
    rintro r u ⟨rfl, hr⟩ -
    cases r with
    | true =>
      refine Dialogue.Tries.mono (hinv.requireExactTagObject sound fun _ => hfail) ?_
      rintro r t'' ⟨rfl, -⟩
      exact ⟨href', hwritten t'' (ht'.imp_right fun heq => ⟨hfail, heq⟩)⟩
    | false => exact Dialogue.tries_throw hfail

omit sound in
/-- The Release of a job that is there already does not move Latest again. -/
theorem Inv.isIntended_of_release {guard : Guard} (hguard : Guards guard job s)
    (hrelease : s.releases job.tag ≠ none) : guard.isIntended s.latestRelease = true := by
  unfold Guard.isIntended
  cases hadvance : guard.advance with
  | true =>
    obtain ⟨hstable, hahead⟩ := hguard.advance.mp hadvance
    obtain ⟨job', hlatest, hle⟩ := h.top job hstable hrelease
    exact absurd (hahead job' hlatest) (not_lt_of_ge hle)
  | false => simp [hguard.before]

/-- The tag and Latest are looked at once more before the job is done. -/
theorem Inv.requireSettled {guard : Guard} (href : s.refs (refName job.tag) ≠ none)
    (hintended : guard.isIntended s.latestRelease = true) :
    Meets service plan mayFail (fun _ t => t = s) err (do
      Release.requireExactTagObject job.spec job.source (job.date service) (job.sha service)
      guard.verify parse) s := by
  refine Dialogue.Tries.bind (h.requireExactTagObject sound fun habsent => absurd habsent href) ?_
  rintro r t ⟨rfl, -⟩ -
  refine h.verify sound fun hnot => ?_
  rw [hintended] at hnot
  cases hnot

/-- Reconciliation leaves the Release of the job on the forge. -/
theorem Inv.reconcileRelease (main : Text) (href : s.refs (refName job.tag) ≠ none) :
    Meets service plan mayFail
      (fun _ t => t.refs (refName job.tag) ≠ none ∧ t.releases job.tag ≠ none)
      (fun _ => mayFail)
      (reconcileRelease parse job.spec job.source main (job.date service) (job.sha service)) s := by
  refine Dialogue.Tries.bind (h.capture sound) ?_
  rintro guard t ⟨hguard, rfl⟩ -
  refine Dialogue.Tries.bind (h.inspectRelease sound) ?_
  rintro r t ⟨rfl, hr⟩ -
  cases hrelease : t.releases job.tag with
  | some release =>
    rw [hrelease] at hr
    obtain rfl : r = true := hr
    have hpresent : t.releases job.tag ≠ none := hrelease.trans_ne (Option.some_ne_none _)
    have hintended := h.isIntended_of_release hguard hpresent
    refine Dialogue.Tries.mono (h.requireSettled sound href hintended) ?_
    rintro r u rfl
    exact ⟨href, hpresent⟩
  | none =>
    rw [hrelease] at hr
    obtain rfl : r = false := hr
    refine Dialogue.Tries.bind (h.createRelease sound main hguard href hrelease) ?_
    rintro r t' ⟨href', hlost, hintended⟩ hsteps
    have hinv : Inv service plan t' := h.steps hsteps
    refine Dialogue.Tries.bind (hinv.inspectRelease sound) ?_
    rintro r u ⟨rfl, hr⟩ -
    cases hrelease' : u.releases job.tag with
    | none =>
      rw [hrelease'] at hr
      obtain rfl : r = false := hr
      exact Dialogue.tries_throw (hlost hrelease')
    | some release =>
      rw [hrelease'] at hr
      obtain rfl : r = true := hr
      have hpresent : u.releases job.tag ≠ none := hrelease'.trans_ne (Option.some_ne_none _)
      refine Dialogue.Tries.mono (hinv.requireSettled sound href' (hintended hpresent)) ?_
      rintro r v rfl
      exact ⟨href', hpresent⟩

/-! ### Versions -/

/-- The tag and the Release of the job are there. -/
def Job.complete (job : Job plan) (s : Forge) : Prop :=
  s.refs (refName job.tag) ≠ none ∧ s.releases job.tag ≠ none

omit sound h in
theorem Grows.complete {t : Forge} (hgrows : Grows plan s t) (hs : job.complete s) :
    job.complete t :=
  ⟨hgrows.refs_ne_none hs.1, hgrows.releases_ne_none hs.2⟩

theorem Inv.finalizePackage (job : Job plan) (main : Text) :
    Meets service plan mayFail (fun _ t => job.complete t) (fun _ => mayFail)
      (finalizePackage parse job.package job.version job.source main (job.date service)
        job.spec.line) s := by
  refine Dialogue.Tries.bind (meets_liftExcept (job.spec_eq sound)) ?_
  rintro spec t ⟨rfl, rfl⟩ -
  refine Dialogue.Tries.bind (h.reconcileTag sound main) ?_
  rintro sha t' ⟨rfl, href⟩ hsteps
  exact (h.steps hsteps).reconcileRelease sound main href

end

theorem drop_eq_cons {α : Type} {xs rest : List α} {x : α} {n : Nat} (h : xs.drop n = x :: rest) :
    ∃ hlt : n < xs.length, xs.get ⟨n, hlt⟩ = x ∧ rest = xs.drop (n + 1) := by
  have hlt : n < xs.length := by
    by_contra hle
    rw [List.drop_eq_nil_of_le (by omega)] at h
    cases h
  rw [List.drop_eq_getElem_cons hlt] at h
  obtain ⟨hx, hrest⟩ := List.cons.inj h
  exact ⟨hlt, hx, hrest.symm⟩

section
variable {service : Service} {plan : Plan} {parse : Text → Option Version} {mayFail : Prop}
  {s : Forge} (sound : plan.Sound service parse)

include sound

/-- The packages from ordinal `n` on. -/
theorem Inv.finalizePackages (main : Text) {version : Version} (mem : plan.versions version)
    {packages : List PackagePolicy} {n : Nat} (hpackages : packages = (forVersion version).drop n)
    (h : Inv service plan s)
    (hdone : ∀ job : Job plan, job.version = version → job.ordinal < n → job.complete s) :
    Meets service plan mayFail
      (fun _ t => ∀ job : Job plan, job.version = version → job.complete t) (fun _ => mayFail)
      (finalizePackages parse version (plan.source version) main
        (service.commitDate (plan.source version)) (plan.line version) packages) s := by
  induction packages generalizing n s with
  | nil =>
    have hlength : (forVersion version).length ≤ n := List.drop_eq_nil_iff.mp hpackages.symm
    intro job hjob
    exact hdone job hjob (by have := job.lt; rw [hjob] at this; omega)
  | cons package rest ih =>
    obtain ⟨hlt, hpackage, hrest⟩ := drop_eq_cons hpackages.symm
    refine Dialogue.Tries.bind (meets_rebind (plan.source version) main h) ?_
    rintro r t rfl -
    have hthis : Meets service plan mayFail _ _ _ t :=
      h.finalizePackage sound ⟨version, mem, n, hlt⟩ main
    rw [show (⟨version, mem, n, hlt⟩ : Job plan).package = package from hpackage] at hthis
    refine Dialogue.Tries.bind hthis ?_
    intro r t' hcomplete hsteps
    refine ih hrest (h.steps hsteps) fun job hjob hordinal => ?_
    rcases Nat.lt_succ_iff_lt_or_eq.mp hordinal with hlt' | heq
    · exact (Grows.steps hsteps).complete (hdone job hjob hlt')
    · have hjob' : job = ⟨version, mem, n, hlt⟩ := Job.ext hjob heq
      rw [hjob']
      exact hcomplete

omit sound in
theorem Inv.sourceCommit (source : Text) (h : Inv service plan s) : Meets service plan mayFail
    (fun r t => r = ⟨source, some (service.commitDate source)⟩ ∧ t = s) (fun _ => mayFail)
    (sourceCommit source) s := by
  refine Dialogue.Tries.bind (meets_read rfl rfl h.guarantee) ?_
  rintro r t ⟨rfl, rfl⟩ -
  exact meets_liftExcept (if_neg (not_not_intro rfl))

/-- A run leaves every package of its version with its tag and its Release, or fails where
the forge may. -/
theorem Inv.finalize (main : Text) {version : Version} (mem : plan.versions version)
    (h : Inv service plan s) : Meets service plan mayFail
      (fun _ t => ∀ job : Job plan, job.version = version → job.complete t) (fun _ => mayFail)
      (finalize parse version (plan.source version) main (plan.line version)) s := by
  refine Dialogue.Tries.bind (Inv.sourceCommit (plan.source version) h) ?_
  rintro r t ⟨rfl, rfl⟩ -
  exact h.finalizePackages sound main mem (n := 0) rfl fun job _ hlt =>
    absurd hlt (Nat.not_lt_zero _)

/-! ### Qualification -/

theorem Inv.requireConsistentPackage (h : Inv service plan s) (job : Job plan)
    {states : List Bool} (hstates : states.any (! ·) = false) :
    Meets service plan mayFail (fun _ t => t = s) (fun _ => mayFail)
      (requireConsistentPackage job.package job.source job.version job.spec.line
        (job.date service) states) s := by
  refine Dialogue.Tries.bind (meets_liftExcept (job.spec_eq sound)) ?_
  rintro spec t ⟨rfl, rfl⟩ -
  refine Dialogue.Tries.bind (h.inspectTag sound) ?_
  rintro tag t ⟨rfl, htag⟩ -
  refine Dialogue.Tries.bind (h.inspectRelease sound) ?_
  rintro release t ⟨rfl, hrelease⟩ -
  have hconsistent : requireConsistent tag release states = .ok () := by
    unfold requireConsistent
    rw [hstates, Bool.and_false, if_neg Bool.false_ne_true]
    refine if_neg fun hmissing => ?_
    simp only [Bool.and_eq_true, Option.isNone_iff_eq_none] at hmissing
    rw [hmissing.1] at hrelease
    obtain ⟨release', hrelease'⟩ := Option.isSome_iff_exists.mp hrelease.symm
    obtain ⟨-, -, -, href⟩ := h.releases _ _ hrelease'
    rcases htag with ⟨-, hnone⟩ | ⟨hsome, -⟩
    · exact href hnone
    · rw [hmissing.2] at hsome
      cases hsome
  exact Dialogue.Tries.mono (meets_liftExcept hconsistent) fun _ _ hr => hr.2

theorem Inv.requireConsistentPackages {version : Version} (mem : plan.versions version)
    {states : List Bool} (hstates : states.any (! ·) = false) {packages : List PackagePolicy}
    {n : Nat} (hpackages : packages = (forVersion version).drop n) (h : Inv service plan s) :
    Meets service plan mayFail (fun _ t => t = s) (fun _ => mayFail)
      (requireConsistentPackages (plan.source version) version (plan.line version)
        (service.commitDate (plan.source version)) states packages) s := by
  induction packages generalizing n with
  | nil => exact rfl
  | cons package rest ih =>
    obtain ⟨hlt, hpackage, hrest⟩ := drop_eq_cons hpackages.symm
    have hthis : Meets service plan mayFail _ _ _ s :=
      Inv.requireConsistentPackage sound h ⟨version, mem, n, hlt⟩ hstates
    rw [show (⟨version, mem, n, hlt⟩ : Job plan).package = package from hpackage] at hthis
    refine Dialogue.Tries.bind hthis ?_
    rintro r t rfl -
    exact ih hrest

theorem Inv.requireConsistentObjects {version : Version} (mem : plan.versions version)
    {states : List Bool} (hstates : states.any (! ·) = false) (h : Inv service plan s) :
    Meets service plan mayFail (fun _ t => t = s) (fun _ => mayFail)
      (requireConsistentObjects (plan.source version) version (plan.line version) states) s := by
  refine Dialogue.Tries.bind (Inv.sourceCommit (plan.source version) h) ?_
  rintro r t ⟨rfl, rfl⟩ -
  exact Inv.requireConsistentPackages sound mem hstates (n := 0) rfl h

end

end Release
end YamlSigil
