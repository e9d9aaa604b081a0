/-
Finalization of a published version: its annotated tags, its Releases and Latest.

Each package of the version gets a tag object, the reference to it and a Release, and
what is there already is checked and kept.  Latest is selected before a Release is
created, and read back afterwards.
-/
import YamlSigil.Release.Forge

namespace YamlSigil
namespace Release

open YamlSigil.Core Control Format.SemVer

/-! ## Selection of Latest -/

section
variable (parse : Text → Option Version)

/-- The version and the package ordinal of a tag, by the tag prefixes from `ordinal` on. -/
def releaseOrderFrom (tag : Text) : Nat → List PackagePolicy → Except Text (Version × Nat)
  | _, [] => .error "Latest tag is outside the compiled package family".toList
  | ordinal, policy :: rest =>
      match policy.tagPrefix.isPrefixOf? tag with
      | none => releaseOrderFrom tag (ordinal + 1) rest
      | some raw =>
          match parse raw with
          | none => .error "Latest tag has an invalid version".toList
          | some version =>
              if version.toText ≠ raw ∨ version.build ≠ [] ∨
                  (forVersion version).length ≤ ordinal then
                .error "Latest tag has a noncanonical version".toList
              else .ok (version, ordinal)

def releaseOrder (tag : Text) : Except Text (Version × Nat) :=
  releaseOrderFrom parse tag 0 allPackages

/-- Latest is a canonical stable Release of the repository. -/
def requireCanonical : Option Latest → Except Text Unit
  | none => .ok ()
  | some latest => do
      let order ← releaseOrder parse latest.tagName
      if latest.id = 0 ∨ order.1.pre ≠ [] ∨ order.1.build ≠ [] then
        .error "Latest is not one canonical stable repository Release".toList
      else .ok ()

def readLatest : Forging (Option Latest) := do
  let observed ← call .latest
  liftExcept (requireCanonical parse observed)
  return observed

structure Guard where
  before : Option Latest
  target : Text
  advance : Bool

namespace Guard

/-- No support Release holds Latest. -/
def requireUnheld (line : ReleaseLine) (tag : Text) (before : Option Latest) :
    Except Text Unit :=
  if line ≠ .main ∧ before.map Latest.tagName = some tag then
    .error "support release already holds Latest; reconcile that state before retrying".toList
  else .ok ()

/-- Only a main stable version advances Latest, and an earlier package does not displace a
later package of the same version. -/
def advances (line : ReleaseLine) (target : Version × Nat) (before : Option Latest) :
    Except Text Bool :=
  if line.makeLatest target.1 then
    match before with
    | none => .ok true
    | some latest => do
        let order ← releaseOrder parse latest.tagName
        return decide (toLex order < toLex target)
  else .ok false

def capture (line : ReleaseLine) (tag : Text) : Forging Guard := do
  let target ← liftExcept (releaseOrder parse tag)
  let before ← readLatest parse
  liftExcept (requireUnheld line tag before)
  let advance ← liftExcept (advances parse line target before)
  return ⟨before, tag, advance⟩

def requestValue (guard : Guard) : Text :=
  if guard.advance then "true".toList else "false".toList

def requireUnchanged (guard : Guard) : Forging Unit := do
  if (← readLatest parse) ≠ guard.before then
    throw "Latest changed before Release creation; requalify without mutation".toList

/-- What is Latest afterwards is what the guard intends. -/
def isIntended (guard : Guard) (after : Option Latest) : Bool :=
  if guard.advance then after.map Latest.tagName == some guard.target else after == guard.before

def verify (guard : Guard) : Forging Unit := do
  if !guard.isIntended (← readLatest parse) then
    throw "Latest readback differs from the intended Release outcome".toList

end Guard

end

/-! ## The release of one package -/

structure ReleaseSpec where
  line : ReleaseLine
  tag : Text
  body : Text
  prerelease : Bool
  message : Text

def requireTag (value : Text) : Except Text Unit :=
  if value.isEmpty || !value.all fun c =>
      ('a' ≤ c && c ≤ 'z') || ('0' ≤ c && c ≤ '9') || c == '-' || c == '.' || c == 'v' then
    .error "release tag is malformed".toList
  else .ok ()

/-- The specification of a package, on the main line. -/
def ReleaseSpec.new (package : PackagePolicy) (version : Version) (sourceSha : Text) :
    Except Text ReleaseSpec := do
  let tag := package.tag version.toText
  requireTag tag
  return {
    line := .main
    tag := tag
    body := "Source: https://github.com/".toList ++ repository ++ "/commit/".toList ++ sourceSha ++
      "\n\nThis source-only Release contains no attached assets.".toList
    prerelease := !version.pre.isEmpty
    message := "chore: release package ".toList ++ package.package ++ " version ".toList ++
      version.toText }

/-! ### Tags -/

def validateTagRef (reference : GitRef) (spec : ReleaseSpec) : Except Text Text :=
  if reference.name ≠ refName spec.tag ∨ reference.object.kind ≠ "tag".toList then
    .error (spec.tag ++ " is not an annotated tag".toList)
  else do
    requireSha reference.object.sha "tag object SHA".toList
    return reference.object.sha

def validateTag (object : AnnotatedTag) (spec : ReleaseSpec)
    (sourceSha taggerDate objectSha : Text) : Except Text Unit :=
  if object.sha ≠ objectSha ∨ object.tag ≠ spec.tag ∨ object.message ≠ spec.message ∨
      object.object.kind ≠ "commit".toList ∨ object.object.sha ≠ sourceSha ∨
      object.tagger.name ≠ appLogin ∨ object.tagger.email ≠ appEmail ∨
      object.tagger.date ≠ taggerDate then
    .error ("annotated tag ".toList ++ spec.tag ++ " has conflicting state".toList)
  else .ok ()

def inspectTag (spec : ReleaseSpec) (sourceSha taggerDate : Text) : Forging (Option Text) := do
  let reference ← call (.ref spec.tag)
  match reference with
  | none => return none
  | some reference =>
      let objectSha ← liftExcept (validateTagRef reference spec)
      let object ← call (.tagObject objectSha)
      liftExcept (validateTag object spec sourceSha taggerDate objectSha)
      return some objectSha

def requireExactTagObject (spec : ReleaseSpec)
    (sourceSha taggerDate expectedObjectSha : Text) : Forging Unit := do
  let observed ← inspectTag spec sourceSha taggerDate
  if observed ≠ some expectedObjectSha then
    throw ("annotated tag ".toList ++ spec.tag ++ " does not retain exact object ".toList ++
      expectedObjectSha)

def tagPayload (spec : ReleaseSpec) (sourceSha taggerDate : Text) : TagPayload where
  tag := spec.tag
  message := spec.message
  object := sourceSha
  kind := "commit".toList
  tagger := ⟨appLogin, appEmail, taggerDate⟩

def createTagObject (spec : ReleaseSpec) (sourceSha policyMainSha taggerDate : Text) :
    Forging AnnotatedTag := do
  call (.rebind sourceSha policyMainSha)
  let object ← call (.createTag (tagPayload spec sourceSha taggerDate))
  liftExcept (requireSha object.sha "created tag object SHA".toList)
  liftExcept (validateTag object spec sourceSha taggerDate object.sha)
  let readback ← call (.tagObject object.sha)
  liftExcept (validateTag readback spec sourceSha taggerDate object.sha)
  return object

def createTagRef (spec : ReleaseSpec) (sourceSha policyMainSha taggerDate objectSha : Text) :
    Forging Unit := do
  call (.rebind sourceSha policyMainSha)
  let result ← Dialogue.attempt (call (.createRef (refName spec.tag) objectSha))
  match result with
  | .ok reference =>
      if (← liftExcept (validateTagRef reference spec)) ≠ objectSha then
        throw ("GitHub created ".toList ++ spec.tag ++ " at a different tag object".toList)
  | .error error =>
      match ← Dialogue.attempt (requireExactTagObject spec sourceSha taggerDate objectSha) with
      | .error _ => throw error
      | .ok () => return ()

def reconcileTag (spec : ReleaseSpec) (sourceSha policyMainSha taggerDate : Text) :
    Forging Text := do
  match ← inspectTag spec sourceSha taggerDate with
  | some objectSha => return objectSha
  | none =>
      let object ← createTagObject spec sourceSha policyMainSha taggerDate
      createTagRef spec sourceSha policyMainSha taggerDate object.sha
      requireExactTagObject spec sourceSha taggerDate object.sha
      return object.sha

/-! ### Releases -/

def validateRelease (release : Release) (spec : ReleaseSpec) (sourceSha : Text) :
    Except Text Unit :=
  if release.id = 0 ∨ release.tagName ≠ spec.tag ∨ release.targetCommitish ≠ sourceSha ∨
      release.name ≠ spec.tag ∨ release.body ≠ spec.body ∨ release.draft = true ∨
      release.prerelease ≠ spec.prerelease ∨ release.immutable = false ∨
      release.author.login ≠ appLogin ∨ release.author.id ≠ appId ∨
      release.author.kind ≠ "Bot".toList ∨ release.assets ≠ [] then
    .error ("GitHub Release ".toList ++ spec.tag ++
      " is not exact, immutable, App-authored, and zero-asset".toList)
  else .ok ()

def inspectRelease (spec : ReleaseSpec) (sourceSha : Text) : Forging Bool := do
  let release ← call (.release spec.tag)
  match release with
  | none => return false
  | some release =>
      liftExcept (validateRelease release spec sourceSha)
      return true

def releasePayload (spec : ReleaseSpec) (sourceSha makeLatest : Text) : ReleasePayload where
  tagName := spec.tag
  targetCommitish := sourceSha
  name := spec.tag
  body := spec.body
  draft := false
  prerelease := spec.prerelease
  generateReleaseNotes := false
  makeLatest := makeLatest

section
variable (parse : Text → Option Version)

def createRelease (spec : ReleaseSpec) (sourceSha policyMainSha taggerDate tagObjectSha : Text)
    (latest : Guard) : Forging Unit := do
  -- decide before mutation; older recovery and support preserve Latest
  let payload := releasePayload spec sourceSha latest.requestValue
  call (.rebind sourceSha policyMainSha)
  requireExactTagObject spec sourceSha taggerDate tagObjectSha
  latest.requireUnchanged parse
  match ← Dialogue.attempt (call (.createRelease payload)) with
  | .ok release => liftExcept (validateRelease release spec sourceSha)
  | .error error =>
      if ← inspectRelease spec sourceSha then
        requireExactTagObject spec sourceSha taggerDate tagObjectSha
      else throw error

def reconcileRelease (spec : ReleaseSpec)
    (sourceSha policyMainSha taggerDate tagObjectSha : Text) : Forging Unit := do
  let latest ← Guard.capture parse spec.line spec.tag
  if ← inspectRelease spec sourceSha then
    requireExactTagObject spec sourceSha taggerDate tagObjectSha
    latest.verify parse
  else
    createRelease parse spec sourceSha policyMainSha taggerDate tagObjectSha latest
    if ← inspectRelease spec sourceSha then
      requireExactTagObject spec sourceSha taggerDate tagObjectSha
      latest.verify parse
    else throw ("immutable Release ".toList ++ spec.tag ++ " was not retained".toList)

/-! ## Versions -/

def finalizePackage (package : PackagePolicy) (version : Version)
    (sourceSha policyMainSha taggerDate : Text) (line : ReleaseLine) : Forging Unit := do
  let spec ← liftExcept (ReleaseSpec.new package version sourceSha)
  let spec := { spec with line := line }
  let tagObjectSha ← reconcileTag spec sourceSha policyMainSha taggerDate
  reconcileRelease parse spec sourceSha policyMainSha taggerDate tagObjectSha

def requireCommit (sourceSha : Text) (commit : Commit) : Except Text Commit :=
  if commit.sha ≠ sourceSha then .error "GitHub returned a different source commit".toList
  else .ok commit

def sourceCommit (sourceSha : Text) : Forging Commit := do
  let commit ← call (.commit sourceSha)
  liftExcept (requireCommit sourceSha commit)

/-- The packages one after the other. -/
def finalizePackages (version : Version) (sourceSha policyMainSha taggerDate : Text)
    (line : ReleaseLine) : List PackagePolicy → Forging Unit
  | [] => return ()
  | package :: rest => do
      call (.rebind sourceSha policyMainSha)
      finalizePackage parse package version sourceSha policyMainSha taggerDate line
      finalizePackages version sourceSha policyMainSha taggerDate line rest

/-- The finalizer, once the policy is bound and all crates are public. -/
def finalize (version : Version) (sourceSha policyMainSha : Text) (line : ReleaseLine) :
    Forging Unit := do
  let source ← sourceCommit sourceSha
  match source.committerDate with
  | none => throw "release source raw committer is missing".toList
  | some date =>
      finalizePackages parse version sourceSha policyMainSha date line (forVersion version)

end

/-! ## Qualification -/

inductive Operation where
  | auto
  | release
  | validate
  | recover
deriving DecidableEq

structure Decision where
  publish : Bool
  finalize : Bool
deriving DecidableEq

/-- No published crate follows a missing one. -/
def isPublishedPrefix : List Bool → Bool
  | [] => true
  | true :: rest => isPublishedPrefix rest
  | false :: rest => rest.all (! ·)

def Operation.decide (operation : Operation) (states : List Bool) (version : Version) :
    Except Text Decision :=
  if states.length ≠ (forVersion version).length then
    .error "registry state does not cover the exact selected package family".toList
  else if operation = .validate then .ok ⟨false, false⟩
  else if !isPublishedPrefix states then
    .error "published crates do not form the exact dependency-order prefix".toList
  else
    let published := states.count true
    match operation with
    | .validate => .ok ⟨false, false⟩
    | .auto =>
        if published = 0 then .ok ⟨true, true⟩
        else if published = states.length then .ok ⟨false, false⟩
        else .error
          "partial publication requires bounded recovery from the original source".toList
    | .release =>
        if published = 0 then .ok ⟨true, true⟩
        else if published = states.length then
          .error ("support version is already published; use recovery only for ".toList ++
            "incomplete finalization".toList)
        else .error
          "partial publication requires bounded recovery from the original source".toList
    | .recover =>
        if published = 0 then
          .error ("zero-package recovery is forbidden; start a fresh release ".toList ++
            "from the current tip".toList)
        else .ok ⟨published ≠ states.length, true⟩

/-- The objects of one package, against the registry. -/
def requireConsistent (tag : Option Text) (release : Bool) (states : List Bool) :
    Except Text Unit :=
  if (tag.isSome || release) && states.any (! ·) then
    .error "forge objects coexist with incomplete crate publication".toList
  else if release && tag.isNone then
    .error "immutable Release has no exact retained annotated tag".toList
  else .ok ()

def requireConsistentPackage (package : PackagePolicy) (source : Text) (version : Version)
    (line : ReleaseLine) (date : Text) (states : List Bool) : Forging Unit := do
  let spec ← liftExcept (ReleaseSpec.new package version source)
  let spec := { spec with line := line }
  let tag ← inspectTag spec source date
  let release ← inspectRelease spec source
  liftExcept (requireConsistent tag release states)

def requireConsistentPackages (source : Text) (version : Version) (line : ReleaseLine)
    (date : Text) (states : List Bool) : List PackagePolicy → Forging Unit
  | [] => return ()
  | package :: rest => do
      requireConsistentPackage package source version line date states
      requireConsistentPackages source version line date states rest

def requireConsistentObjects (source : Text) (version : Version) (line : ReleaseLine)
    (states : List Bool) : Forging Unit := do
  let commit ← sourceCommit source
  match commit.committerDate with
  | none => throw "source committer is missing".toList
  | some date =>
      requireConsistentPackages source version line date states (forVersion version)

end Release
end YamlSigil
