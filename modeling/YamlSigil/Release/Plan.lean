/-
What a release plan puts on the forge.

Each version of a plan has one source and one line.  A job is one package of one
version: it stands for one tag, whose payload and Release it fixes.
-/
import Mathlib.Tactic.IntervalCases
import YamlSigil.Release.Finalize

namespace YamlSigil
namespace Release

open YamlSigil.Core Control Format.SemVer

/-- The versions of the plan, and the source and the line of each. -/
structure Plan where
  versions : Version → Prop
  source : Version → Text
  line : Version → ReleaseLine

/-- One package of one version, the package by its ordinal. -/
structure Job (plan : Plan) where
  version : Version
  mem : plan.versions version
  ordinal : Nat
  lt : ordinal < (forVersion version).length

namespace Job

variable {plan : Plan}

def package (job : Job plan) : PackagePolicy :=
  (forVersion job.version).get ⟨job.ordinal, job.lt⟩

def tag (job : Job plan) : Text := job.package.tag job.version.toText

/-- The order of Releases: by version, then by package. -/
def key (job : Job plan) : Version ×ₗ Nat := toLex (job.version, job.ordinal)

def source (job : Job plan) : Text := plan.source job.version

/-- The specification of the package, on the line of the version. -/
def spec (job : Job plan) : ReleaseSpec where
  line := plan.line job.version
  tag := job.tag
  body := "Source: https://github.com/".toList ++ repository ++ "/commit/".toList ++ job.source ++
    "\n\nThis source-only Release contains no attached assets.".toList
  prerelease := !job.version.pre.isEmpty
  message := "chore: release package ".toList ++ job.package.package ++ " version ".toList ++
    job.version.toText

def date (service : Service) (job : Job plan) : Text := service.commitDate job.source

def payload (service : Service) (job : Job plan) : TagPayload :=
  tagPayload job.spec job.source (job.date service)

def sha (service : Service) (job : Job plan) : Text := service.objectSha (job.payload service)

/-- A main stable version may become Latest. -/
def mainStable (job : Job plan) : Prop := plan.line job.version = .main ∧ job.version.pre = []

theorem ext {job job' : Job plan} (hversion : job.version = job'.version)
    (hordinal : job.ordinal = job'.ordinal) : job = job' := by
  obtain ⟨version, mem, ordinal, lt⟩ := job
  obtain ⟨version', mem', ordinal', lt'⟩ := job'
  subst hversion hordinal
  rfl

end Job

/-- What the plan relies on: `parse` reads the versions of the plan back, `requireTag`
accepts their tags, and no two of their tag objects share a name. -/
structure Plan.Sound (plan : Plan) (service : Service) (parse : Text → Option Version) :
    Prop where
  parse_toText : ∀ v, plan.versions v → parse v.toText = some v
  requireTag_tag : ∀ v, plan.versions v → ∀ package ∈ forVersion v,
    requireTag (package.tag v.toText) = .ok ()
  payload_eq : ∀ job job' : Job plan, job.sha service = job'.sha service →
    job.payload service = job'.payload service

/-! ## Tags -/

theorem requireTag_eq_ok {value : Text} (h : requireTag value = .ok ()) {c : Char}
    (hc : c ∈ value) :
    (('a' ≤ c && c ≤ 'z') || ('0' ≤ c && c ≤ '9') || c == '-' || c == '.' || c == 'v') = true := by
  unfold requireTag at h
  split at h
  · cases h
  · next hvalue =>
    simp only [Bool.or_eq_true, Bool.not_eq_true', not_or, Bool.not_eq_false] at hvalue
    exact List.all_eq_true.mp hvalue.2 c hc

theorem plus_mem_toText {v : Version} (h : v.build ≠ []) : '+' ∈ v.toText := by
  simp [Version.toText, h]

/-- A tag has no place for build metadata. -/
theorem build_eq_nil {package : PackagePolicy} {v : Version}
    (h : requireTag (package.tag v.toText) = .ok ()) : v.build = [] := by
  by_contra hbuild
  have hplus : '+' ∈ package.tag v.toText := List.mem_append_right _ (plus_mem_toText hbuild)
  exact absurd (requireTag_eq_ok h hplus) (by decide)

theorem forVersion_eq_take (v : Version) :
    ∃ n, forVersion v = allPackages.take n := by
  unfold forVersion
  split
  · exact ⟨5, rfl⟩
  · exact ⟨4, rfl⟩

theorem getElem?_forVersion {v : Version} {i : Nat} {package : PackagePolicy}
    (h : (forVersion v)[i]? = some package) : allPackages[i]? = some package := by
  obtain ⟨n, hn⟩ := forVersion_eq_take v
  rw [hn, List.getElem?_take] at h
  split at h
  · exact h
  · cases h

/-- The prefixes of the packages tell them apart: at their twelfth character. -/
theorem isPrefixOf?_tag {i j : Nat} {package policy : PackagePolicy}
    (hi : allPackages[i]? = some package) (hj : allPackages[j]? = some policy) (hne : j ≠ i)
    (text : Text) : policy.tagPrefix.isPrefixOf? (package.tag text) = none := by
  have hi' : i < 5 := (List.getElem?_eq_some_iff.mp hi).1
  have hj' : j < 5 := (List.getElem?_eq_some_iff.mp hj).1
  interval_cases i <;> interval_cases j <;>
    first
    | exact absurd rfl hne
    | (cases hi; cases hj; rfl)

section
variable {plan : Plan} {service : Service} {parse : Text → Option Version}

theorem Job.getElem?_package (job : Job plan) :
    (forVersion job.version)[job.ordinal]? = some job.package :=
  List.getElem?_eq_getElem job.lt

theorem Job.package_mem (job : Job plan) : job.package ∈ forVersion job.version :=
  List.get_mem _ _

theorem releaseOrderFrom_eq {tag raw : Text} {v : Version} {ordinal : Nat}
    {package : PackagePolicy} (htag : tag = package.tag raw)
    (hparse : parse raw = some v) (htext : v.toText = raw) (hbuild : v.build = [])
    (hlt : ordinal < (forVersion v).length) (hordinal : allPackages[ordinal]? = some package) :
    ∀ n ≤ ordinal, releaseOrderFrom parse tag n (allPackages.drop n) = .ok (v, ordinal) := by
  intro n hn
  induction hk : ordinal - n generalizing n with
  | zero =>
    obtain rfl : n = ordinal := by omega
    obtain ⟨hlength, hget⟩ := List.getElem?_eq_some_iff.mp hordinal
    have hstrip : package.tagPrefix.isPrefixOf? tag = some raw :=
      isPrefixOf?_eq_some.mpr htag
    rw [List.drop_eq_getElem_cons hlength, hget, releaseOrderFrom]
    simp only [hstrip, hparse]
    rw [if_neg]
    rintro (h | h | h)
    · exact h htext
    · exact h hbuild
    · exact absurd hlt (Nat.not_lt.mpr h)
  | succ k ih =>
    have hlength : n < allPackages.length := by
      have := (List.getElem?_eq_some_iff.mp hordinal).1
      omega
    have hstrip : allPackages[n].tagPrefix.isPrefixOf? tag = none := by
      rw [htag]
      exact isPrefixOf?_tag hordinal (List.getElem?_eq_getElem hlength) (by omega) raw
    rw [List.drop_eq_getElem_cons hlength, releaseOrderFrom]
    simp only [hstrip]
    exact ih (n + 1) (by omega) (by omega)

variable (sound : plan.Sound service parse)

include sound

theorem Job.requireTag_eq (job : Job plan) : requireTag job.tag = .ok () :=
  sound.requireTag_tag job.version job.mem job.package job.package_mem

theorem Job.build_eq (job : Job plan) : job.version.build = [] :=
  build_eq_nil (job.requireTag_eq sound)

/-- A tag of the plan is read back as the job that it stands for. -/
theorem Job.releaseOrder_eq (job : Job plan) :
    releaseOrder parse job.tag = .ok (job.version, job.ordinal) :=
  releaseOrderFrom_eq rfl (sound.parse_toText job.version job.mem) rfl (job.build_eq sound) job.lt
    (getElem?_forVersion job.getElem?_package) 0 (Nat.zero_le _)

theorem Job.tag_injective {job job' : Job plan} (h : job.tag = job'.tag) : job = job' := by
  have horder := job.releaseOrder_eq sound
  rw [h, job'.releaseOrder_eq sound] at horder
  have hpair : (job'.version, job'.ordinal) = (job.version, job.ordinal) := Except.ok.inj horder
  exact Job.ext (congrArg Prod.fst hpair).symm (congrArg Prod.snd hpair).symm

/-- The specification is the one that the finalizer makes. -/
theorem Job.spec_eq (job : Job plan) :
    ReleaseSpec.new job.package job.version job.source = .ok { job.spec with line := .main } := by
  have h : requireTag (job.package.tag job.version.toText) = .ok () := job.requireTag_eq sound
  unfold ReleaseSpec.new
  simp only [h]
  rfl

end

end Release
end YamlSigil
