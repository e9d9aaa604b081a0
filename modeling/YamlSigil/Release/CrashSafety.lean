/-
Crash safety of finalization.

Runs of the finalizer follow one another, each cut off anywhere.  At every moment the
forge is safe, it only grows, and every version can be recovered: a run that is not
disturbed completes it.
-/
import YamlSigil.Release.Reconcile

namespace YamlSigil
namespace Release

open YamlSigil.Core Control Format.SemVer

/-! ## Runs -/

/-- The finalizer at work, and the forge. -/
abbrev Running := Dialogue.Config Request Answer Forge (Except Text Unit)

/-- No run has begun. -/
def Running.start : Running := ⟨.done (.ok ()), Forge.empty⟩

/-- A run for a version of the plan, under some policy of the main line. -/
def Finalizes (plan : Plan) (parse : Text → Option Version)
    (program : Dialogue Request Answer (Except Text Unit)) : Prop :=
  ∃ version main, plan.versions version ∧
    program = (finalize parse version (plan.source version) main (plan.line version)).run

/-- One request of the run under way, whose write may take effect or not and may report an
error in both cases, or the start of the next run. -/
abbrev Move (service : Service) (plan : Plan) (parse : Text → Option Version) :
    Running → Running → Prop :=
  Dialogue.Moves (service.world True) (Finalizes plan parse)

/-- At some later moment of a sequence of runs. -/
abbrev Later (service : Service) (plan : Plan) (parse : Text → Option Version) :
    Running → Running → Prop :=
  Relation.ReflTransGen (Move service plan parse)

/-! ## Safety -/

/-- Every Release is one of the plan and has its tag, Latest is a Release, of a main stable
version, and every main stable Release is at or below Latest. -/
structure Safe (plan : Plan) (s : Forge) : Prop where
  planned : ∀ tag, s.releases tag ≠ none → ∃ job : Job plan, tag = job.tag
  tagged : ∀ tag, s.releases tag ≠ none → s.refs (refName tag) ≠ none
  released : ∀ tag, s.latest = some tag → s.releases tag ≠ none
  stable : ∀ job : Job plan, s.latest = some job.tag → job.mainStable
  top : ∀ job : Job plan, job.mainStable → s.releases job.tag ≠ none →
    ∃ job' : Job plan, s.latest = some job'.tag ∧ job.key ≤ job'.key

/-- An undisturbed recovery of the version: its state is accepted, it is authorized, and it
ends with every package tagged and released, on a forge that is safe. -/
structure Recovers (service : Service) (plan : Plan) (parse : Text → Option Version) (s : Forge)
    (version : Version) (main : Text) : Prop where
  consistent : (requireConsistentObjects (plan.source version) version (plan.line version)
    (List.replicate (forVersion version).length true)).run.run service.party s = (.ok (), s)
  authorized : Operation.recover.decide (List.replicate (forVersion version).length true)
    version = .ok ⟨false, true⟩
  finalized : ((finalize parse version (plan.source version) main
    (plan.line version)).run.run service.party s).1 = .ok ()
  complete : ∀ job : Job plan, job.version = version → job.complete
    ((finalize parse version (plan.source version) main
      (plan.line version)).run.run service.party s).2
  safe : Safe plan ((finalize parse version (plan.source version) main
    (plan.line version)).run.run service.party s).2

section
variable {service : Service} {plan : Plan} {parse : Text → Option Version} {s : Forge}
  (sound : plan.Sound service parse)

include sound

theorem Inv.safe (h : Inv service plan s) : Safe plan s where
  planned := by
    intro tag hrelease
    obtain ⟨release, hrelease⟩ := Option.ne_none_iff_exists'.mp hrelease
    obtain ⟨job, htag, -⟩ := h.releases tag release hrelease
    exact ⟨job, htag⟩
  tagged := by
    intro tag hrelease
    obtain ⟨release, hrelease⟩ := Option.ne_none_iff_exists'.mp hrelease
    obtain ⟨-, -, -, href⟩ := h.releases tag release hrelease
    exact href
  released := by
    intro tag hlatest
    obtain ⟨-, -, -, hrelease⟩ := h.latest tag hlatest
    exact hrelease
  stable := by
    intro job hlatest
    obtain ⟨job', hstable, htag, -⟩ := h.latest _ hlatest
    obtain rfl := Job.tag_injective sound htag
    exact hstable
  top := h.top

omit sound in
theorem forVersion_length_pos (version : Version) : 0 < (forVersion version).length := by
  unfold forVersion
  split
  · decide
  · decide

omit sound in
/-- Recovery of a version whose crates are all public finalizes and publishes nothing. -/
theorem decide_recover (version : Version) : Operation.recover.decide
    (List.replicate (forVersion version).length true) version = .ok ⟨false, true⟩ := by
  have hlength := forVersion_length_pos version
  have hordered : ∀ n, isPublishedPrefix (List.replicate n true) = true := by
    intro n
    induction n with
    | zero => rfl
    | succ n ih => exact ih
  unfold Operation.decide
  rw [List.length_replicate, if_neg (not_not_intro rfl), if_neg (by decide), hordered]
  simp only [Bool.not_true, Bool.false_eq_true, if_false, List.count_replicate_self]
  rw [if_neg (by omega)]
  simp

theorem Inv.recovers (h : Inv service plan s) {version : Version} (mem : plan.versions version)
    (main : Text) : Recovers service plan parse s version main := by
  have hstates : (List.replicate (forVersion version).length true).any (! ·) = false := by
    simp
  have hconsistent : Meets service plan False _ _ _ s :=
    Inv.requireConsistentObjects sound mem hstates h
  have hfinalize : Meets service plan False _ _ _ s := Inv.finalize sound main mem h
  obtain ⟨_, t, hrun, rfl⟩ := hconsistent.run fun _ => id
  obtain ⟨_, u, hrun', hcomplete⟩ := hfinalize.run fun _ => id
  have hsteps := (Dialogue.Keeps.run (Dialogue.Keeps.steps hfinalize)).2
  refine ⟨hrun, decide_recover version, ?_, ?_, (h.steps hsteps).safe sound⟩
  · rw [hrun']
  · rw [hrun']
    exact hcomplete

theorem finalizes_keeps (p : Dialogue Request Answer (Except Text Unit))
    (hp : Finalizes plan parse p) (t : Forge) (h : Inv service plan t) :
    p.Keeps (service.world True) (Guarantee service plan) (fun _ _ => True) t := by
  obtain ⟨version, main, mem, rfl⟩ := hp
  exact Dialogue.Keeps.mono (Inv.finalize sound main mem h) fun _ _ _ => trivial

theorem later_inv {c : Running} (h : Later service plan parse Running.start c) :
    Inv service plan c.state ∧ c.program.Keeps (service.world True) (Guarantee service plan)
      (fun _ _ => True) c.state := by
  obtain ⟨hinv, hkeeps, -⟩ := Dialogue.Moves.keeps (fun _ _ hG => hG.1)
    (finalizes_keeps sound) h (inv_empty service plan) trivial
  exact ⟨hinv, hkeeps⟩

end

/-- Finalization is crash-safe, Latest never moves backward, and recovery is never stuck. -/
theorem finalization_crash_safe (service : Service) (plan : Plan) (parse : Text → Option Version)
    (sound : plan.Sound service parse) (c : Running)
    (hc : Later service plan parse Running.start c) :
    Safe plan c.state ∧
    (∀ d, Later service plan parse c d → Grows plan c.state d.state) ∧
    ∀ version, plan.versions version → ∀ main,
      Recovers service plan parse c.state version main := by
  obtain ⟨hinv, hkeeps⟩ := later_inv sound hc
  refine ⟨hinv.safe sound, fun d hd => ?_, fun version mem main => hinv.recovers sound mem main⟩
  obtain ⟨-, -, hsteps⟩ := Dialogue.Moves.keeps (fun _ _ hG => hG.1) (finalizes_keeps sound) hd
    hinv hkeeps
  exact Grows.steps hsteps

/-! ## Two versions -/

def version060 : Version := ⟨0, 6, 0, [], []⟩

def version051 : Version := ⟨0, 5, 1, [], []⟩

/-- `0.6.0` on the main line, and `0.5.1` behind it on a support line. -/
def planTwo : Plan where
  versions v := v = version060 ∨ v = version051
  source v := List.replicate 40 (if v = version060 then 'a' else 'b')
  line v := if v = version060 then .main else .support 0 5

def parseTwo (text : Text) : Option Version :=
  if text = "0.6.0".toList then some version060
  else if text = "0.5.1".toList then some version051
  else none

/-- The packages differ in the twelfth character of their tags, the versions in the last. -/
def tagDigit (tag : Text) : Char :=
  match tag[11]?, tag.getLast? with
  | some 'c', some '0' => '0'
  | some 't', some '0' => '1'
  | some 's', some '0' => '2'
  | some 'v', some '0' => '3'
  | some 'c', some '1' => '5'
  | some 't', some '1' => '6'
  | some 's', some '1' => '7'
  | some 'v', some '1' => '8'
  | _, _ => '4'

def objectShaTwo (payload : TagPayload) : Text := List.replicate 40 (tagDigit payload.tag)

def serviceTwo : Service where
  objectSha := objectShaTwo
  requireSha_objectSha := by
    intro payload label
    unfold requireSha objectShaTwo tagDigit
    rw [if_neg]
    simp
    split <;> decide
  releaseId := fun _ _ => 1
  releaseId_ne_zero := fun _ _ => by decide
  commitDate := fun _ => "2026-09-04T12:00:00Z".toList

/-- The jobs of the plan, in a row. -/
def rowTwo (job : Job planTwo) : Nat :=
  if job.version = version060 then job.ordinal else 5 + job.ordinal

theorem rowTwo_lt (job : Job planTwo) : rowTwo job < 9 := by
  obtain ⟨version, mem, ordinal, lt⟩ := job
  rcases mem with rfl | rfl
  · have hlt : ordinal < 5 := lt
    exact lt_trans hlt (by decide)
  · have hlt : ordinal < 4 := lt
    exact Nat.add_lt_add_left hlt 5

theorem tagDigit_version060 : ∀ i : Fin (forVersion version060).length,
    tagDigit (((forVersion version060).get i).tag version060.toText) = Nat.digitChar i := by
  decide

theorem tagDigit_version051 : ∀ i : Fin (forVersion version051).length,
    tagDigit (((forVersion version051).get i).tag version051.toText) =
      Nat.digitChar (5 + i) := by
  decide

theorem shaTwo (job : Job planTwo) :
    job.sha serviceTwo = List.replicate 40 (Nat.digitChar (rowTwo job)) := by
  obtain ⟨version, mem, ordinal, lt⟩ := job
  rcases mem with rfl | rfl
  · exact congrArg (List.replicate 40) (tagDigit_version060 ⟨ordinal, lt⟩)
  · exact congrArg (List.replicate 40) (tagDigit_version051 ⟨ordinal, lt⟩)

theorem rowTwo_injective : Function.Injective rowTwo := by
  intro job job' h
  obtain ⟨version, mem, ordinal, lt⟩ := job
  obtain ⟨version', mem', ordinal', lt'⟩ := job'
  rcases mem with rfl | rfl
  · rcases mem' with rfl | rfl
    · exact Job.ext rfl h
    · have hlt : ordinal < 5 := lt
      have hrow : ordinal = 5 + ordinal' := h
      omega
  · rcases mem' with rfl | rfl
    · have hlt : ordinal' < 5 := lt'
      have hrow : 5 + ordinal = ordinal' := h
      omega
    · exact Job.ext rfl (Nat.add_left_cancel h)

theorem soundTwo : planTwo.Sound serviceTwo parseTwo where
  parse_toText := by
    rintro v (rfl | rfl)
    · rfl
    · rfl
  requireTag_tag := by
    rintro v (rfl | rfl) package hpackage
    · revert hpackage package
      decide
    · revert hpackage package
      decide
  payload_eq := by
    intro job job' hsha
    have hlt := rowTwo_lt job
    have hlt' := rowTwo_lt job'
    rw [shaTwo job, shaTwo job'] at hsha
    have hdigit : Nat.digitChar (rowTwo job) = Nat.digitChar (rowTwo job') :=
      (List.replicate_inj.mp hsha).2.resolve_left (by decide)
    have hrow : rowTwo job = rowTwo job' := by
      revert hdigit
      generalize rowTwo job = i at hlt ⊢
      generalize rowTwo job' = j at hlt' ⊢
      interval_cases i <;> interval_cases j <;> decide
    rw [rowTwo_injective hrow]

/-- The run for a version of the plan. -/
def runTwo (version : Version) : Dialogue Request Answer (Except Text Unit) :=
  (finalize parseTwo version (planTwo.source version) [] (planTwo.line version)).run

/-- The run for `0.6.0` is cut off when the second package has its tag and no Release. -/
def cutOff : Running := (runTwo version060).after serviceTwo.party 28 Forge.empty

/-- The run for `0.5.1` comes behind it, up to its first tag object. -/
def behindCutOff : Running := (runTwo version051).after serviceTwo.party 5 cutOff.state

theorem later_behindCutOff :
    Later serviceTwo planTwo parseTwo Running.start behindCutOff := by
  have hfirst : Move serviceTwo planTwo parseTwo Running.start
      ⟨runTwo version060, Forge.empty⟩ := .start ⟨version060, [], .inl rfl, rfl⟩
  have hsecond : Move serviceTwo planTwo parseTwo cutOff ⟨runTwo version051, cutOff.state⟩ :=
    Dialogue.moves_start _ cutOff ⟨version051, [], .inr rfl, rfl⟩
  have hcut : Later serviceTwo planTwo parseTwo ⟨runTwo version060, Forge.empty⟩ cutOff :=
    Dialogue.moves_after ..
  have hbehind : Later serviceTwo planTwo parseTwo ⟨runTwo version051, cutOff.state⟩
      behindCutOff := Dialogue.moves_after ..
  exact (hcut.head hfirst).trans (hbehind.head hsecond)

/-- Of the second package of `0.6.0` the tag is there, and the Release is not. -/
theorem finalization_crash_safe_cut_off :
    (behindCutOff.state.refs (refName "yaml-sigil-transcription-v0.6.0".toList)).isSome = true ∧
    (behindCutOff.state.releases "yaml-sigil-transcription-v0.6.0".toList).isNone = true ∧
    Safe planTwo behindCutOff.state ∧
    Recovers serviceTwo planTwo parseTwo behindCutOff.state version060 [] ∧
    Recovers serviceTwo planTwo parseTwo behindCutOff.state version051 [] := by
  obtain ⟨hsafe, -, hrecovers⟩ := finalization_crash_safe serviceTwo planTwo parseTwo soundTwo
    behindCutOff later_behindCutOff
  exact ⟨by decide +kernel, by decide +kernel, hsafe, hrecovers version060 (.inl rfl) [],
    hrecovers version051 (.inr rfl) []⟩

end Release
end YamlSigil
