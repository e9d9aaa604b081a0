/-
The manifests of a release checkout.

The version of a workspace stands in its root manifest, and selects the packages that are
released.  Their configuration says everything itself: a table with a key less or a key more
than the policy has is refused, so that nothing is left to a default of the tool.
-/
import YamlSigil.Release.Policy

namespace YamlSigil
namespace Release

open YamlSigil.Core Format.SemVer

/-! ## Documents -/

/-- What stands at a key of a TOML document. -/
inductive Toml where
  | string (text : Text)
  | boolean (value : Bool)
  | table (entries : List (Text × Toml))
  | tables (tables : List (List (Text × Toml)))
  | other

namespace Toml

abbrev Table := List (Text × Toml)

def lookup (key : Text) (table : Table) : Option Toml :=
  (table.find? fun entry => entry.1 = key).map Prod.snd

/-- `Item::get` -/
def get (key : Text) : Toml → Option Toml
  | table entries => lookup key entries
  | _ => none

def asStr : Toml → Option Text
  | string text => some text
  | _ => none

def asBool : Toml → Option Bool
  | boolean value => some value
  | _ => none

def asTableLike : Toml → Option Table
  | table entries => some entries
  | _ => none

def asArrayOfTables : Toml → Option (List Table)
  | tables found => some found
  | _ => none

/-- The set of keys is `expected`. -/
def keysAre (table : Table) (expected : List Text) : Bool :=
  (table.all fun entry => expected.contains entry.1) &&
    expected.all fun key => (lookup key table).isSome

def isStr (table : Table) (key value : Text) : Bool :=
  (lookup key table).bind asStr = some value

def isBool (table : Table) (key : Text) (value : Bool) : Bool :=
  (lookup key table).bind asBool = some value

end Toml

/-- The libraries that read documents and versions. -/
structure Parsers where
  document : Text → Option Toml.Table
  version : Text → Option Version

/-- `Option::ok_or_else` -/
def okOr {α : Type} (message : String) : Option α → Except Text α
  | some a => .ok a
  | none => .error message.toList

/-! ## Versions -/

variable (parsers : Parsers)

def parseReleaseVersion (value : Text) : Except Text Version :=
  match parsers.version value with
  | none => .error ("invalid release version ".toList ++ value)
  | some version =>
    if version.build ≠ [] then
      .error "release versions cannot contain build metadata".toList
    else .ok version

/-- `manifest` is what `read_manifest` returns below the root, if it reads the file. -/
def current (manifest : Text → Option Text) : Except Text Version := do
  let body ← okOr "read workspace Cargo.toml" (manifest "Cargo.toml".toList)
  let document ← okOr "parse workspace Cargo.toml" (parsers.document body)
  let value ← okOr "missing [workspace.package] version"
    ((((Toml.lookup "workspace".toList document).bind (Toml.get "package".toList)).bind
      (Toml.get "version".toList)).bind Toml.asStr)
  parseReleaseVersion parsers value

/-! ## The release configuration -/

def workspaceKeys : List Text :=
  ["changelog_update".toList, "git_release_enable".toList, "git_release_type".toList,
    "git_tag_enable".toList, "pr_branch_prefix".toList, "publish_allow_dirty".toList,
    "publish_no_verify".toList, "publish_timeout".toList, "release".toList,
    "release_always".toList, "semver_check".toList]

def workspaceBools : List (Text × Bool) :=
  [("release".toList, false), ("release_always".toList, false),
    ("changelog_update".toList, true), ("git_tag_enable".toList, false),
    ("git_release_enable".toList, false), ("publish_allow_dirty".toList, false),
    ("publish_no_verify".toList, false), ("semver_check".toList, false)]

def workspaceStrs : List (Text × Text) :=
  [("git_release_type".toList, "auto".toList), ("publish_timeout".toList, "5m".toList)]

def manualBranchPrefix : Text := "release-plz-manual-".toList

/-- The first field whose value is not the expected one is the error. -/
def requireFields {α : Type} (holds : Text → α → Bool) : List (Text × α) → Except Text Unit
  | [] => .ok ()
  | (name, value) :: rest =>
    if holds name value = false then
      .error ("release-plz workspace field ".toList ++ name ++
        " differs from release policy".toList)
    else requireFields holds rest

def requireWorkspace (workspace : Toml.Table) : Except Text Unit := do
  if Toml.keysAre workspace workspaceKeys = false then
    .error "release-plz workspace policy fields are not exact".toList
  else
    requireFields (Toml.isBool workspace) workspaceBools
    if Toml.isStr workspace "pr_branch_prefix".toList manualBranchPrefix = false then
      .error ("release-plz branch prefix differs from ".toList ++ manualBranchPrefix)
    else requireFields (Toml.isStr workspace) workspaceStrs

/-- All features are published of every package but one. -/
def PackagePolicy.publishAllFeatures (policy : PackagePolicy) : Bool :=
  policy.package != "yaml-sigil-transcription".toList

def PackagePolicy.tagName (policy : PackagePolicy) : Text :=
  policy.tagPrefix ++ "\x7b\x7b version \x7d\x7d".toList

def packageKeys (policy : PackagePolicy) : List Text :=
  (if policy.publishAllFeatures then ["publish_all_features".toList] else []) ++
    ["changelog_path".toList, "changelog_update".toList, "git_release_body".toList,
      "git_release_enable".toList, "git_release_name".toList, "git_release_type".toList,
      "git_tag_enable".toList, "git_tag_name".toList, "name".toList, "publish".toList,
      "release".toList, "version_group".toList]

/-- The table of a package says what its policy says. -/
def PackagePolicy.follows (policy : PackagePolicy) (table : Toml.Table) : Bool :=
  Toml.isStr table "name".toList policy.package &&
    Toml.keysAre table (packageKeys policy) &&
    Toml.isStr table "version_group".toList "yaml-sigil-rs".toList &&
    Toml.isBool table "release".toList true &&
    Toml.isBool table "publish".toList true &&
    ((Toml.lookup "publish_all_features".toList table).bind Toml.asBool ==
      if policy.publishAllFeatures then some true else none) &&
    Toml.isBool table "changelog_update".toList true &&
    Toml.isStr table "changelog_path".toList policy.changelog &&
    Toml.isBool table "git_tag_enable".toList false &&
    Toml.isStr table "git_tag_name".toList policy.tagName &&
    Toml.isBool table "git_release_enable".toList false &&
    Toml.isStr table "git_release_name".toList policy.tagName &&
    Toml.isStr table "git_release_body".toList "\x7b\x7b changelog \x7d\x7d".toList &&
    Toml.isStr table "git_release_type".toList "auto".toList

def requirePackages : List (Toml.Table × PackagePolicy) → Except Text Unit
  | [] => .ok ()
  | (table, policy) :: rest =>
    if policy.follows table = false then
      .error ("release-plz package policy differs for ".toList ++ policy.package)
    else requirePackages rest

def validatePolicy (manifest : Text → Option Text) : Except Text Unit := do
  let version ← current parsers manifest
  let body ← okOr "read release-plz configuration" (manifest (config version))
  let document ← okOr "parse release-plz configuration" (parsers.document body)
  if Toml.keysAre document ["package".toList, "workspace".toList] = false then
    .error "release-plz configuration has unexpected top-level policy".toList
  else
    let workspace ← okOr "release-plz configuration lacks [workspace]"
      ((Toml.lookup "workspace".toList document).bind Toml.asTableLike)
    requireWorkspace workspace
    let packages ← okOr "release-plz configuration lacks package policy"
      ((Toml.lookup "package".toList document).bind Toml.asArrayOfTables)
    if packages.length ≠ (forVersion version).length then
      .error "release-plz configuration must name exactly the source version's packages".toList
    else requirePackages (packages.zip (forVersion version))

/-! ## What is checked -/

variable {parsers}

end Release
end YamlSigil
