/-
Rebinding a source immediately before its publication.

The protected history is fetched into a scratch repository, the source is bound to it, and
then it is fetched again.  No fetch sees main and the base of the line at one moment, but
between two fetches that found the same commits both refs stood there together.
-/
import YamlSigil.Release.Forge
import YamlSigil.Release.Provenance
import YamlSigil.Release.Workspace

namespace YamlSigil
namespace Release
namespace Provenance

open YamlSigil.Core Control Format.CommitGraph Format.SemVer

/-! ## The executing environment -/

/-- The variables that are set, as texts. -/
structure Environment where
  githubActions : Option Text
  githubRef : Option Text
  githubRepository : Option Text

def observedRepository (env : Environment) (explicit : Option Text) : Except Text Text :=
  if env.githubActions = some "true".toList then
    if env.githubRef ≠ some mainRef then
      .error "release policy executes only from protected main".toList
    else
      match env.githubRepository with
      | none => .error "GITHUB_REPOSITORY is required".toList
      | some actual =>
        if explicit.any (· ≠ actual) = true then
          .error "repository argument differs from GitHub's repository identity".toList
        else .ok actual
  else
    match explicit with
    | none => .error "local start-support requires --repository".toList
    | some value => .ok value

def requireRepository (env : Environment) (explicit : Option Text) : Except Text Unit := do
  let observed ← observedRepository env explicit
  if observed ≠ repository then
    .error "repository differs from compiled release policy".toList
  else .ok ()

/-- What is read of a local checkout: its manifests, the components of its path and of the
top level that Git names, the changes that Git lists, and the commit. -/
structure Checkout where
  manifest : Text → Option Text
  path : Except Text (List Text)
  topLevel : Except Text (List Text)
  status : Except Text Text
  head : Except Text Text

def Checkout.exactRoot (checkout : Checkout) : Except Text (List Text) := do
  let actual ← checkout.path
  let top ← checkout.topLevel
  if actual ≠ top then .error "release checkout must be its exact clean Git root".toList
  else
    let status ← checkout.status
    if status ≠ [] then .error "release checkout must be its exact clean Git root".toList
    else .ok actual

/-- The checkout stands on its qualified source. -/
def Checkout.requireHead (checkout : Checkout) (sourceSha : Text) : Except Text Unit :=
  if isSha sourceSha = false then
    .error "source checkout differs from its qualified source".toList
  else do
    let head ← checkout.head
    if head ≠ sourceSha then
      .error "source checkout differs from its qualified source".toList
    else .ok ()

structure RebindArgs where
  repository : Option Text
  baseRef : Text
  operation : Operation
  sourceSha : Text
  version : Version

/-- The checks of `rebind` that need no network. -/
def qualify (env : Environment) (parsers : Parsers) (args : RebindArgs)
    (policy source : Checkout) : Except Text ReleaseLine := do
  requireRepository env args.repository
  validatePolicy parsers policy.manifest
  let line ← ReleaseLine.fromBaseRef args.baseRef
  line.requireVersion args.version
  validatePolicy parsers source.manifest
  let version ← current parsers source.manifest
  if version ≠ args.version then
    .error "rebound source version differs from qualification".toList
  else
    let policyRoot ← policy.exactRoot
    let sourceRoot ← source.exactRoot
    if policyRoot = sourceRoot ∨ sourceRoot.isPrefixOf policyRoot = true ∨
        policyRoot.isPrefixOf sourceRoot = true then
      .error "policy and source require separate, non-nested roots".toList
    else
      source.requireHead args.sourceSha
      .ok line

/-! ## The scratch repository -/

/-- What a fetch leaves in the scratch repository. -/
structure Scratch where
  git : Git
  revParse : Text → Except Text Text

inductive Request where
  | create
  | fetch (line : ReleaseLine)
deriving DecidableEq

abbrev Answer : Request → Type
  | .create => Except Text Unit
  | .fetch _ => Except Text Scratch

abbrev Rebinding (α : Type) := ExceptT Text (Dialogue Request Answer) α

def settled {α : Type} (r : Except Text α) : Rebinding α := ExceptT.mk (.done r)

def create : Rebinding Unit := ExceptT.mk (.ask .create .done)

def fetch (line : ReleaseLine) : Rebinding Scratch := ExceptT.mk (.ask (.fetch line) .done)

/-- The line, main and the base that are bound from the first fetch. -/
def bindFetched (json : Json) (args : RebindArgs) (policy : Checkout) (line : ReleaseLine)
    (scratch : Scratch) : Except Text (Text × Text) := do
  let main ← scratch.revParse ReleaseLine.main.trackingRef
  let base ← scratch.revParse line.trackingRef
  let head ← policy.head
  if head ≠ main then .error "executing policy is no longer exact current main".toList
  else
    let binding ← Binding.load scratch.git json main args.sourceSha line args.operation
    binding.verifyGit scratch.git base
    .ok (main, base)

/-- Both live refs are where they were. -/
def requireStill (line : ReleaseLine) (main base : Text) (scratch : Scratch) :
    Except Text Unit := do
  let mainAgain ← scratch.revParse ReleaseLine.main.trackingRef
  if mainAgain ≠ main then .error "protected refs moved during policy rebind".toList
  else
    let baseAgain ← scratch.revParse line.trackingRef
    if baseAgain ≠ base then .error "protected refs moved during policy rebind".toList
    else .ok ()

/-- Returned is the main that is printed. -/
def rebind (env : Environment) (parsers : Parsers) (json : Json) (args : RebindArgs)
    (policy source : Checkout) : Rebinding Text := do
  let line ← settled (qualify env parsers args policy source)
  create
  let first ← fetch line
  let bound ← settled (bindFetched json args policy line first)
  let second ← fetch line
  settled (requireStill line bound.1 bound.2 second)
  pure bound.1

/-! ## What is bound -/

theorem requireVersion_eq_ok {line : ReleaseLine} {version : Version} {u : Unit}
    (h : line.requireVersion version = .ok u) : line.admits version = true := by
  unfold ReleaseLine.requireVersion at h
  split_ifs at h with hadmits
  exact hadmits

/-- A fetch from `r` to `r'`.  Its objects are of the forge, and each of its refs was at the
commit at a moment in between, not all at one. -/
structure Fetched (r r' : Remote) (line : ReleaseLine) (scratch : Scratch) (R : Repository) :
    Prop where
  reports : scratch.git.Reports R
  grows : R.history.Grows r'.history
  read : ∀ fetched ∈ [ReleaseLine.main, line], ∀ tip,
    scratch.revParse fetched.trackingRef = .ok tip → R.history.commit tip ∧
      ∃ moment, Named.Moves Protected r moment ∧ Named.Moves Protected moment r' ∧
        moment.refs fetched.baseRef = some tip

section
variable {w₀ : ScratchWatch} {json : Json} {args : RebindArgs} {policy source : Checkout}
  {line : ReleaseLine}

/-- A ref that two fetches found at one commit stood there in between. -/
theorem Fetched.still {r r' r'' : Remote} {first second : Scratch} {R R' : Repository}
    {fetched : ReleaseLine} {tip : Text} (h : Fetched r r' line first R)
    (h' : Fetched r' r'' line second R') (hmem : fetched ∈ [ReleaseLine.main, line])
    (htip : first.revParse fetched.trackingRef = .ok tip)
    (htip' : second.revParse fetched.trackingRef = .ok tip) :
    r'.refs fetched.baseRef = some tip := by
  obtain ⟨-, moment, -, hmoves, hat⟩ := h.read fetched hmem tip htip
  obtain ⟨-, moment', hmoves', -, hat'⟩ := h'.read fetched hmem tip htip'
  exact hmoves.still hmoves' (protected_base fetched) hat hat'

end

end Provenance
end Release
end YamlSigil
