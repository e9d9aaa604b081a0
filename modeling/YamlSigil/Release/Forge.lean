/-
The forge: annotated tags, immutable Releases and one Latest pointer.

The requests are those that a finalization puts to it.  A read returns the current
state.  A tag object is named after its payload, a reference and a Release are created
once and kept, and a created Release becomes Latest when it is asked to.
-/
import Mathlib.Logic.Function.Basic
import YamlSigil.Control.Crash
import YamlSigil.Release.Policy

namespace YamlSigil
namespace Release

open YamlSigil.Core Control

def repository : Text := "NVIDIA/yaml-sigil-rs".toList

def appLogin : Text := "nvidia-yamlsigil-release-pr[bot]".toList

def appId : Nat := 318780254

def appEmail : Text := "318780254+nvidia-yamlsigil-release-pr[bot]@users.noreply.github.com".toList

def requireSha (value label : Text) : Except Text Unit :=
  if value.length ≠ 40 ∨
      !value.all fun c => ('0' ≤ c && c ≤ '9') || ('a' ≤ c && c ≤ 'f') then
    .error (label ++ " is not a lowercase full SHA".toList)
  else .ok ()

/-! ## What the forge holds -/

structure GitObject where
  sha : Text
  kind : Text
deriving DecidableEq

structure GitRef where
  name : Text
  object : GitObject
deriving DecidableEq

structure Tagger where
  name : Text
  email : Text
  date : Text
deriving DecidableEq

structure AnnotatedTag where
  sha : Text
  tag : Text
  message : Text
  tagger : Tagger
  object : GitObject
deriving DecidableEq

structure ReleaseAuthor where
  login : Text
  id : Nat
  kind : Text
deriving DecidableEq

structure Release where
  id : Nat
  tagName : Text
  targetCommitish : Text
  name : Text
  body : Text
  draft : Bool
  prerelease : Bool
  immutable : Bool
  author : ReleaseAuthor
  assets : List Text
deriving DecidableEq

structure Latest where
  id : Nat
  tagName : Text
deriving DecidableEq

/-- A commit, with the date of its raw committer. -/
structure Commit where
  sha : Text
  committerDate : Option Text
deriving DecidableEq

structure Forge where
  objects : Text → Option AnnotatedTag
  refs : Text → Option GitObject
  releases : Text → Option Release
  latest : Option Text

def Forge.empty : Forge := ⟨fun _ => none, fun _ => none, fun _ => none, none⟩

/-- What is read for Latest. -/
def Forge.latestRelease (s : Forge) : Option Latest :=
  (s.latest.bind s.releases).map fun release => ⟨release.id, release.tagName⟩

/-! ## Requests -/

structure TagPayload where
  tag : Text
  message : Text
  object : Text
  kind : Text
  tagger : Tagger
deriving DecidableEq

structure ReleasePayload where
  tagName : Text
  targetCommitish : Text
  name : Text
  body : Text
  draft : Bool
  prerelease : Bool
  generateReleaseNotes : Bool
  makeLatest : Text
deriving DecidableEq

inductive Request where
  | rebind (source main : Text)
  | commit (sha : Text)
  | ref (tag : Text)
  | tagObject (sha : Text)
  | release (tag : Text)
  | latest
  | createTag (payload : TagPayload)
  | createRef (name sha : Text)
  | createRelease (payload : ReleasePayload)

def Response : Request → Type
  | .rebind _ _ => Unit
  | .commit _ => Commit
  | .ref _ => Option GitRef
  | .tagObject _ => AnnotatedTag
  | .release _ => Option Release
  | .latest => Option Latest
  | .createTag _ => AnnotatedTag
  | .createRef _ _ => GitRef
  | .createRelease _ => Release

abbrev Answer (q : Request) := Except Text (Response q)

def Request.writes : Request → Bool
  | .createTag _ => true
  | .createRef _ _ => true
  | .createRelease _ => true
  | _ => false

/-- A response that reports an error. -/
def Answer.fails (q : Request) (a : Answer q) : Prop := ∃ e, a = .error e

def refName (tag : Text) : Text := "refs/tags/".toList ++ tag

/-- The tag object of a payload. -/
def TagPayload.toTag (payload : TagPayload) (sha : Text) : AnnotatedTag where
  sha := sha
  tag := payload.tag
  message := payload.message
  tagger := payload.tagger
  object := ⟨payload.object, payload.kind⟩

/-- The Release of a payload, by the App.  The repository makes Releases immutable. -/
def ReleasePayload.toRelease (payload : ReleasePayload) (id : Nat) : Release where
  id := id
  tagName := payload.tagName
  targetCommitish := payload.targetCommitish
  name := payload.name
  body := payload.body
  draft := payload.draft
  prerelease := payload.prerelease
  immutable := true
  author := ⟨appLogin, appId, "Bot".toList⟩
  assets := []

/-- What the forge chooses: the names of tag objects, which depend on their payloads
alone, the numbers of Releases, and the dates of commits. -/
structure Service where
  objectSha : TagPayload → Text
  requireSha_objectSha : ∀ payload label, requireSha (objectSha payload) label = .ok ()
  releaseId : Forge → ReleasePayload → Nat
  releaseId_ne_zero : ∀ s payload, releaseId s payload ≠ 0
  commitDate : Text → Text

namespace Forge

def putObject (s : Forge) (sha : Text) (object : AnnotatedTag) : Forge :=
  { s with objects := Function.update s.objects sha (some object) }

def putRef (s : Forge) (name : Text) (object : GitObject) : Forge :=
  { s with refs := Function.update s.refs name (some object) }

/-- Keep a Release, and move Latest to it when that is asked for. -/
def putRelease (s : Forge) (payload : ReleasePayload) (release : Release) : Forge :=
  { s with
    releases := Function.update s.releases payload.tagName (some release)
    latest := if payload.makeLatest = "true".toList then some payload.tagName else s.latest }

@[simp] theorem putObject_self (s : Forge) (sha : Text) (object : AnnotatedTag) :
    (s.putObject sha object).objects sha = some object := Function.update_self _ _ _

@[simp] theorem putRef_self (s : Forge) (name : Text) (object : GitObject) :
    (s.putRef name object).refs name = some object := Function.update_self _ _ _

@[simp] theorem putRelease_self (s : Forge) (payload : ReleasePayload) (release : Release) :
    (s.putRelease payload release).releases payload.tagName = some release :=
  Function.update_self _ _ _

theorem putRelease_of_ne (s : Forge) {payload : ReleasePayload} (release : Release) {tag : Text}
    (h : tag ≠ payload.tagName) : (s.putRelease payload release).releases tag = s.releases tag :=
  Function.update_of_ne h _ _

/-- The object of a name, a tag object or else a commit. -/
def gitObject (s : Forge) (sha : Text) : GitObject :=
  ⟨sha, if (s.objects sha).isSome then "tag".toList else "commit".toList⟩

end Forge

namespace Service

variable (service : Service)

def createTag (payload : TagPayload) (s : Forge) : Answer (.createTag payload) × Forge :=
  match s.objects (service.objectSha payload) with
  | some object => (.ok object, s)
  | none =>
      (.ok (payload.toTag (service.objectSha payload)),
        s.putObject (service.objectSha payload) (payload.toTag (service.objectSha payload)))

def createRef (name sha : Text) (s : Forge) : Answer (.createRef name sha) × Forge :=
  match s.refs name with
  | some _ => (.error "Reference already exists".toList, s)
  | none => (.ok ⟨name, s.gitObject sha⟩, s.putRef name (s.gitObject sha))

def createRelease (payload : ReleasePayload) (s : Forge) :
    Answer (.createRelease payload) × Forge :=
  match s.releases payload.tagName with
  | some _ => (.error "Release already exists".toList, s)
  | none =>
      (.ok (payload.toRelease (service.releaseId s payload)),
        s.putRelease payload (payload.toRelease (service.releaseId s payload)))

/-- The forge at work. -/
def party : Party Request Answer Forge
  | .rebind _ _, s => (.ok (), s)
  | .commit sha, s => (.ok ⟨sha, some (service.commitDate sha)⟩, s)
  | .ref tag, s => (.ok ((s.refs (refName tag)).map (GitRef.mk (refName tag))), s)
  | .tagObject sha, s =>
      match s.objects sha with
      | some object => (.ok object, s)
      | none => (.error ("GitHub GET repos/".toList ++ repository ++ "/git/tags/".toList ++ sha ++
          " returned not found".toList), s)
  | .release tag, s => (.ok (s.releases tag), s)
  | .latest, s => (.ok s.latestRelease, s)
  | .createTag payload, s => service.createTag payload s
  | .createRef name sha, s => createRef name sha s
  | .createRelease payload, s => service.createRelease payload s

theorem party_tagObject_some {s : Forge} {sha : Text} {object : AnnotatedTag}
    (h : s.objects sha = some object) : service.party (.tagObject sha) s = (.ok object, s) := by
  simp only [party, h]

theorem party_tagObject_none {s : Forge} {sha : Text} (h : s.objects sha = none) :
    ∃ e, service.party (.tagObject sha) s = (.error e, s) := by
  simp only [party, h]
  exact ⟨_, rfl⟩

/-- The forge as a program meets it.  Where `mayFail`, a write takes effect or not and may
report an error in both cases. -/
def world (mayFail : Prop) : World Request Answer Forge :=
  service.party.world Request.writes Answer.fails mayFail

end Service

/-- A program that puts requests to the forge. -/
abbrev Forging (α : Type) := ExceptT Text (Dialogue Request Answer) α

def call (q : Request) : Forging (Response q) := ExceptT.mk (.ask q .done)

def liftExcept {α : Type} (r : Except Text α) : Forging α := ExceptT.mk (.done r)

end Release
end YamlSigil
