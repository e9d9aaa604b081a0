/-
Package, tag and version policy of a release.

The packages of a version are finalized in one order.  The main line admits every
version.  A support line admits the versions of its own two components, and of those
only the next step after what is published on it.
-/
import YamlSigil.Core.Resource
import YamlSigil.Core.SignatureKeys
import YamlSigil.Format.SemVer

namespace YamlSigil
namespace Release

open YamlSigil.Core Format.SemVer

/-! ## Packages -/

structure PackagePolicy where
  package : Text
  tagPrefix : Text
  changelog : Text
deriving DecidableEq

def PackagePolicy.tag (policy : PackagePolicy) (version : Text) : Text :=
  policy.tagPrefix ++ version

def allPackages : List PackagePolicy := [
  ⟨"yaml-sigil-core".toList, "yaml-sigil-core-v".toList,
    "crates/yaml-sigil-core/CHANGELOG.md".toList⟩,
  ⟨"yaml-sigil-transcription".toList, "yaml-sigil-transcription-v".toList,
    "crates/yaml-sigil-transcription/CHANGELOG.md".toList⟩,
  ⟨"yaml-sigil-signing".toList, "yaml-sigil-signing-v".toList,
    "crates/yaml-sigil-signing/CHANGELOG.md".toList⟩,
  ⟨"yaml-sigil-verification".toList, "yaml-sigil-verification-v".toList,
    "crates/yaml-sigil-verification/CHANGELOG.md".toList⟩,
  ⟨"yaml-sigil-wasm".toList, "yaml-sigil-wasm-v".toList,
    "crates/yaml-sigil-wasm/CHANGELOG.md".toList⟩]

/-- Historical source releases retain their original four-package policy. -/
def rustPolicy : List PackagePolicy := allPackages.take 4

/-- Select from the validated source version, including prerelease versions. -/
def forVersion (version : Version) : List PackagePolicy :=
  if 0 < version.major ∨ version.major = 0 ∧ 6 ≤ version.minor then allPackages else rustPolicy

/-- The release configuration of these packages. -/
def config (version : Version) : Text :=
  if 0 < version.major ∨ version.major = 0 ∧ 6 ≤ version.minor then
    ".release-plz-wasm.toml".toList
  else ".release-plz.toml".toList

/-! ## Lines -/

/-- The source line is independent of protected-main execution policy. -/
inductive ReleaseLine where
  | main
  | support (major minor : Nat)
deriving DecidableEq

namespace ReleaseLine

def baseRef : ReleaseLine → Text
  | main => "refs/heads/main".toList
  | support major minor =>
      "refs/heads/support/".toList ++ digits major ++ '.' :: digits minor

def makeLatest (line : ReleaseLine) (version : Version) : Bool :=
  line == main && version.pre.isEmpty

def admits : ReleaseLine → Version → Bool
  | main, _ => true
  | support major minor, version => version.major == major && version.minor == minor

def requireVersion (line : ReleaseLine) (version : Version) : Except Text Unit :=
  if line.admits version then .ok ()
  else .error ("version ".toList ++ version.toText ++ " is outside ".toList ++ line.baseRef)

end ReleaseLine

/-! ## Ordinals of release candidates -/

def withoutPlus (value : Text) : Text := if value.head? = some '+' then value.tail else value

/-- `str::parse::<u64>` -/
def parseU64 (value : Text) : Option Nat :=
  if (withoutPlus value).isEmpty || !(withoutPlus value).all Char.isDigit then none
  else if valueOf (withoutPlus value) < 2 ^ 64 then some (valueOf (withoutPlus value)) else none

def ordinal (v : Version) : Except Text Nat :=
  match "rc.".toList.isPrefixOf? v.pre with
  | none => .error "support prerelease must be rc.N".toList
  | some value =>
      match parseU64 value with
      | none => .error "invalid support RC ordinal".toList
      | some number =>
          if number = 0 ∨ digits number ≠ value then
            .error "support RC ordinal must be canonical and positive".toList
          else .ok number

theorem parseU64_digits {n : Nat} (h : n < 2 ^ 64) : parseU64 (digits n) = some n := by
  have hplus : withoutPlus (digits n) = digits n := by
    refine if_neg fun hhead => ?_
    have hdigit := List.all_eq_true.mp (all_isDigit_digits n) '+' (List.mem_of_head? hhead)
    exact absurd hdigit (by decide)
  have hempty : (digits n).isEmpty = false := List.isEmpty_eq_false_iff.mpr (digits_ne_nil n)
  rw [parseU64, hplus, hempty, all_isDigit_digits, valueOf_digits, if_neg (by decide), if_pos h]

theorem parseU64_lt {value : Text} {n : Nat} (h : parseU64 value = some n) : n < 2 ^ 64 := by
  unfold parseU64 at h
  split at h
  · cases h
  · split at h
    · next hlt =>
      cases h
      exact hlt
    · cases h

theorem isPrefixOf?_eq_some {p s t : Text} : p.isPrefixOf? s = some t ↔ s = p ++ t := by
  induction p generalizing s with
  | nil => simp [List.isPrefixOf?, eq_comm]
  | cons c p ih =>
    cases s with
    | nil => simp [List.isPrefixOf?]
    | cons d s =>
      rw [List.isPrefixOf?, List.cons_append, List.cons.injEq]
      by_cases hc : c = d
      · rw [if_pos (beq_iff_eq.mpr hc), ih]
        simp [hc]
      · rw [if_neg (by simpa using hc)]
        simp [Ne.symm hc]

/-- The candidates are `rc.1`, `rc.2` and so on. -/
theorem ordinal_eq_ok {v : Version} {n : Nat} :
    ordinal v = .ok n ↔ v.pre = rc n ∧ 0 < n ∧ n < 2 ^ 64 := by
  constructor
  · intro h
    unfold ordinal at h
    cases hstrip : "rc.".toList.isPrefixOf? v.pre with
    | none => rw [hstrip] at h; cases h
    | some value =>
      rw [hstrip] at h
      cases hparse : parseU64 value with
      | none => simp only [hparse] at h; cases h
      | some number =>
        simp only [hparse] at h
        by_cases hbad : number = 0 ∨ digits number ≠ value
        · rw [if_pos hbad] at h; cases h
        · rw [if_neg hbad] at h
          cases h
          obtain ⟨hpos, htext⟩ := not_or.mp hbad
          have hpre := isPrefixOf?_eq_some.mp hstrip
          rw [← not_ne_iff.mp htext] at hpre
          exact ⟨hpre, Nat.pos_of_ne_zero hpos, parseU64_lt hparse⟩
  · intro h
    obtain ⟨hpre, hpos, hlt⟩ := h
    have hstrip : "rc.".toList.isPrefixOf? v.pre = some (digits n) :=
      isPrefixOf?_eq_some.mpr hpre
    unfold ordinal
    rw [hstrip]
    simp only [parseU64_digits hlt]
    rw [if_neg]
    rintro (rfl | htext)
    · exact absurd hpos (Nat.lt_irrefl 0)
    · exact htext rfl

/-! ## Advancement -/

namespace ReleaseLine

/-- The greatest stable version published on the line. -/
def lastStable (line : ReleaseLine) (published : List Version) : Option Version :=
  (published.filter fun v => line.admits v && v.pre.isEmpty && v.build.isEmpty).max?

/-- The greatest version published on the line for the patch of `selected`. -/
def lastOfPatch (line : ReleaseLine) (selected : Version) (published : List Version) :
    Option Version :=
  (published.filter fun v => line.admits v && v.patch == selected.patch).max?

/-- What `require_advancement` asks of a prerelease. -/
def requireNextCandidate (line : ReleaseLine) (selected : Version) (published : List Version) :
    Except Text Unit := do
  let next ← ordinal selected
  match line.lastOfPatch selected published with
  | none => .ok ()
  | some last =>
      let number ← ordinal last
      if checkedAdd number 1 ≠ some next then
        .error "support RC must advance by exactly one ordinal".toList
      else .ok ()

/-- Validate advancement against published versions on this support line. -/
def requireAdvancement (line : ReleaseLine) (selected : Version) (published : List Version) :
    Except Text Unit := do
  line.requireVersion selected
  if line = main then .ok ()
  else if selected.build ≠ [] then
    .error "support releases cannot contain build metadata".toList
  else
    match line.lastStable published with
    | none => .error "support line has no published stable baseline".toList
    | some stable =>
        if checkedAdd stable.patch 1 ≠ some selected.patch then
          .error "support release must use the next patch after its last stable".toList
        else if published.contains selected then
          .error "support release version is already published".toList
        else if selected.pre = [] then .ok ()
        else line.requireNextCandidate selected published

end ReleaseLine

/-! ## Refs of the lines -/

namespace ReleaseLine

/-- A component of a support base.  Every check fails alike. -/
def component (value : Text) : Except Text Nat :=
  if value.isEmpty ∨ 9 < value.length ∨ (1 < value.length ∧ value.head? = some '0') ∨
      ¬value.all Char.isDigit = true then
    .error "support base has a noncanonical version component".toList
  else
    match parseU64 value with
    | none => .error "support version component overflows".toList
    | some n => .ok n

def fromBaseRef (value : Text) : Except Text ReleaseLine :=
  if value = "refs/heads/main".toList then .ok main
  else
    match "refs/heads/support/".toList.isPrefixOf? value with
    | none =>
      .error "release base must be refs/heads/main or refs/heads/support/M.N".toList
    | some line =>
      match splitOnce '.' line with
      | none => .error "support base requires exactly two version components".toList
      | some (major, minor) => do
        let major ← component major
        let minor ← component minor
        .ok (support major minor)

/-- The remote-tracking ref of the base. -/
def trackingRef : ReleaseLine → Text
  | main => "refs/remotes/origin/main".toList
  | support major minor =>
      "refs/remotes/origin/support/".toList ++ digits major ++ '.' :: digits minor

end ReleaseLine

end Release
end YamlSigil
