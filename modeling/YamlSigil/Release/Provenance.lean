/-
Provenance of a release source.

A source is bound to the protected main and the lineage of its line.  For a support line the
inventories in main and in the source agree on the anchor, which is where the line left
main, and the policy of the source is what a commit of main had.  The binding is made from
Git objects, which never change, and is verified against the refs of the forge, which move.
-/
import YamlSigil.Control.Crash
import YamlSigil.Release.Inventory

namespace YamlSigil
namespace Release
namespace Provenance

open YamlSigil.Core Control Format.CommitGraph Format.SemVer

inductive Operation where
  | fresh
  | recover
deriving Repr, DecidableEq

structure Binding where
  line : ReleaseLine
  operation : Operation
  main : Text
  source : Text
  anchor : Option Text
deriving DecidableEq

/-! ## The object database -/

section
variable (git : Git) (json : Json)

def ancestor (older newer : Text) : Except Text Unit :=
  match git.isAncestor older newer with
  | .ok () => .ok ()
  | .error _ =>
    .error "recorded commit is not on the required protected lineage".toList

/-- The blobs of the source are those of the policy commit. -/
def requireChain (source policyCommit : Text) : List (Text × Text) → Except Text Unit
  | [] => .ok ()
  | (path, expected) :: rest => do
    let found ← blob git source path
    if found ≠ expected then
      .error ("historical support blob chain is inconsistent at ".toList ++ path)
    else
      let historical ← blob git policyCommit path
      if historical ≠ expected then
        .error ("historical support blob chain is inconsistent at ".toList ++ path)
      else requireChain source policyCommit rest

/-- The required paths at the policy commit: those of its inventory of the line, or of the
seed where the line was not active. -/
def historicalPaths (line : ReleaseLine) (recorded : Inventory) : Except Text (List Text) := do
  let path ← inventoryPath line
  let tree ← git.lsTree recorded.policyCommit path
  if tree = [] then
    if recorded.enforce = false then
      .error "initial historical inventory must enforce its seed".toList
    else
      let seed ← seedInventory git line recorded.anchor recorded.policyCommit
      .ok seed.blobs.paths
  else
    let historical ← inventory git json recorded.policyCommit line
    if historical.anchor ≠ recorded.anchor ∨ historical.enforce ≠ recorded.enforce then
      .error "historical inventory authority differs".toList
    else .ok historical.blobs.paths

def historicalChain (main source : Text) (line : ReleaseLine) (recorded : Inventory) :
    Except Text Unit := do
  ancestor git recorded.policyCommit main
  let paths ← historicalPaths git json line recorded
  if recorded.blobs.paths ≠ paths then
    .error "source chose a different historical required path set".toList
  else requireChain git source recorded.policyCommit recorded.blobs.entries

/-- The blobs are those of the current main. -/
def requireCurrent (main : Text) : List (Text × Text) → Except Text Unit
  | [] => .ok ()
  | (path, expected) :: rest => do
    let found ← blob git main path
    if found ≠ expected then
      .error ("fresh support policy differs from main at ".toList ++ path)
    else requireCurrent main rest

/-- Fresh publication carries every path that the current main selects, with its current
blob. -/
def requireFresh (main : Text) (operation : Operation) (active recorded : Inventory) :
    Except Text Unit :=
  if operation = .fresh ∧ active.enforce = true then
    if recorded.enforce = false ∨ recorded.blobs.paths ≠ active.blobs.paths then
      .error "fresh source inventory differs from main's required path set".toList
    else requireCurrent git main recorded.blobs.entries
  else .ok ()

/-- The anchor of a line. -/
def loadAnchor (main source : Text) (line : ReleaseLine) (operation : Operation) :
    Except Text (Option Text) :=
  match line with
  | .main => .ok none
  | .support _ _ => do
    let path ← inventoryPath line
    let inventories ← git.supportLines main
    if inventories ≠ path then
      .error "main must select exactly one active support inventory".toList
    else
      let active ← inventory git json main line
      let recorded ← inventory git json source line
      if active.anchor ≠ recorded.anchor then
        .error "source inventory changed the protected activation anchor".toList
      else
        ancestor git active.anchor source
        ancestor git active.anchor main
        let fork ← git.mergeBase source main
        if fork ≠ active.anchor then
          .error "support source fork point differs from its immutable anchor".toList
        else
          historicalChain git json main source line recorded
          requireFresh git main operation active recorded
          .ok (some active.anchor)

namespace Binding

def load (main source : Text) (line : ReleaseLine) (operation : Operation) :
    Except Text Binding := do
  if isSha main = false ∨ isSha source = false then
    .error "provenance requires exact commit identities".toList
  else
    let anchor ← loadAnchor git json main source line operation
    .ok ⟨line, operation, main, source, anchor⟩

/-- `verify_git` -/
def verifyGit (binding : Binding) (base : Text) : Except Text Unit := do
  if binding.operation = .fresh ∧ base ≠ binding.source then
    .error "fresh release requires the exact protected base tip".toList
  else
    ancestor git binding.source base
    match binding.anchor with
    | none => .ok ()
    | some anchor =>
      let fork ← git.mergeBase base binding.main
      if fork ≠ anchor then
        .error "protected support tip changed its activation anchor".toList
      else .ok ()

end Binding

end

/-! ## The forge -/

structure Reference where
  name : Text
  kind : Text
  sha : Text
deriving DecidableEq

structure Comparison where
  status : Text
  base : Text
  mergeBase : Text
deriving DecidableEq

/-- `git/ref/BRANCH` and `compare/SOURCE...TIP` of the repository. -/
inductive Query where
  | ref (branch : Text)
  | compare (source tip : Text)
deriving DecidableEq

abbrev Reply : Query → Type
  | .ref _ => Except Text Reference
  | .compare _ _ => Except Text Comparison

abbrev Verifying (α : Type) := ExceptT Text (Dialogue Query Reply) α

def fail {α : Type} (text : String) : Verifying α := ExceptT.mk (.done (.error text.toList))

def getRef (branch : Text) : Verifying Reference := ExceptT.mk (.ask (.ref branch) .done)

/-- `compare` -/
def compareCommits (source tip : Text) : Verifying Comparison :=
  ExceptT.mk (.ask (.compare source tip) .done)

def readRef (base : Text) : Verifying Text :=
  match "refs/".toList.isPrefixOf? base with
  | none => fail "invalid protected ref"
  | some branch => do
    let reference ← getRef branch
    if reference.name ≠ base ∨ reference.kind ≠ "commit".toList ∨
        isSha reference.sha = false then
      fail "protected base is not one exact commit ref"
    else pure reference.sha

/-- Of each of the commits the fork from main is the anchor. -/
def requireAnchor (main anchor : Text) : List Text → Verifying Unit
  | [] => pure ()
  | commit :: rest => do
    let comparison ← compareCommits commit main
    if comparison.base ≠ commit ∨ comparison.mergeBase ≠ anchor then
      fail "protected support lineage has a different activation anchor"
    else requireAnchor main anchor rest

/-- Both the source and the tip `base` are checked: recovery retains the source, but refuses
a lineage that was merged with main after activation. -/
def Binding.verifyAnchor (binding : Binding) (base : Text) : Verifying Unit :=
  match binding.anchor with
  | none => pure ()
  | some anchor => requireAnchor binding.main anchor [binding.source, base]

def Binding.verify (binding : Binding) : Verifying Unit := do
  let base ← readRef binding.line.baseRef
  if binding.operation = .fresh ∧ base ≠ binding.source then
    fail "fresh release source is no longer the exact protected base tip"
  else
    let comparison ← compareCommits binding.source base
    if (comparison.status ≠ "ahead".toList ∧ comparison.status ≠ "identical".toList) ∨
        comparison.base ≠ binding.source ∨ comparison.mergeBase ≠ binding.source then
      fail "release source is no longer on the protected base lineage"
    else
      binding.verifyAnchor base
      let again ← readRef binding.line.baseRef
      if again ≠ base then fail "protected release base moved during provenance binding"
      else
        let main ← readRef "refs/heads/main".toList
        if main ≠ binding.main then
          fail "executing release policy is no longer exact current main"
        else pure ()

/-! ## What is bound -/

/-- The required paths at the policy commit, where the recorded inventory comes from.  A commit
that has no inventory of the line is where the line was first activated, with the seed. -/
inductive Historical (R : Repository) (json : Json) (line : ReleaseLine) (recorded : Inventory) :
    Prop
  | inventory {v : Inventory} (h : Recorded R json line recorded.policyCommit v)
      (hanchor : v.anchor = recorded.anchor) (henforce : v.enforce = recorded.enforce)
      (hpaths : recorded.blobs.paths = v.blobs.paths)
  | seed {seed path : Text} (hpath : inventoryPath line = .ok path)
      (hfirst : R.entry recorded.policyCommit path = none)
      (h : R.text recorded.policyCommit seedPath = some seed)
      (henforce : recorded.enforce = true)
      (hpaths : ∀ p, p ∈ recorded.blobs.paths ↔ p ∈ seedPaths seed)

/-- The source of a support line, in a repository: the one inventory that main has for a
line is of this line and agrees with the one in the source on the anchor, at which the line
left main; and the policy of the source is that of a commit of main, path by path.  Where main
enforces the policy of the line, a fresh release carries the policy of main. -/
structure Supported (R : Repository) (json : Json) (line : ReleaseLine) (operation : Operation)
    (main source : Text) (active recorded : Inventory) : Prop where
  sole : ∃ path, inventoryPath line = .ok path ∧ R.supportLines main = [path]
  atMain : Recorded R json line main active
  atSource : Recorded R json line source recorded
  anchor : active.anchor = recorded.anchor
  fork : R.history.Fork source main active.anchor
  policy : R.history.Ancestor recorded.policyCommit main
  historical : Historical R json line recorded
  chain : ∀ entry ∈ recorded.blobs.entries, RegularBlob R source entry.1 entry.2 ∧
    RegularBlob R recorded.policyCommit entry.1 entry.2
  fresh : operation = .fresh → active.enforce = true → ∀ path, path ∈ active.blobs.paths →
    ∃ sha, RegularBlob R source path sha ∧ RegularBlob R main path sha

section
variable {git : Git} {json : Json} {R : Repository} {main source : Text} {line : ReleaseLine}

theorem ancestor_eq_ok {older newer : Text} {u : Unit} (hgit : git.Reports R)
    (h : ancestor git older newer = .ok u) : R.history.Ancestor older newer := by
  unfold ancestor at h
  cases hancestor : git.isAncestor older newer with
  | ok u => exact hgit.isAncestor hancestor
  | error e =>
    rw [hancestor] at h
    cases h

theorem requireChain_eq_ok {policyCommit : Text} {entries : List (Text × Text)} {u : Unit}
    (hgit : git.Reports R) (h : requireChain git source policyCommit entries = .ok u) :
    ∀ entry ∈ entries, RegularBlob R source entry.1 entry.2 ∧
      RegularBlob R policyCommit entry.1 entry.2 := by
  induction entries with
  | nil => exact fun _ h => (List.not_mem_nil h).elim
  | cons entry rest ih =>
    obtain ⟨found, hfound, h⟩ := bind_eq_ok_iff.mp h
    split_ifs at h with hsource
    obtain ⟨historical, hhistorical, h⟩ := bind_eq_ok_iff.mp h
    split_ifs at h with hpolicy
    cases not_not.mp hsource
    cases not_not.mp hpolicy
    exact List.forall_mem_cons.mpr ⟨⟨blob_eq_ok hgit hfound, blob_eq_ok hgit hhistorical⟩, ih h⟩

theorem requireCurrent_eq_ok {entries : List (Text × Text)} {u : Unit} (hgit : git.Reports R)
    (h : requireCurrent git main entries = .ok u) :
    ∀ entry ∈ entries, RegularBlob R main entry.1 entry.2 := by
  induction entries with
  | nil => exact fun _ h => (List.not_mem_nil h).elim
  | cons entry rest ih =>
    obtain ⟨found, hfound, h⟩ := bind_eq_ok_iff.mp h
    split_ifs at h with hmain
    cases not_not.mp hmain
    exact List.forall_mem_cons.mpr ⟨blob_eq_ok hgit hfound, ih h⟩

theorem requireFresh_eq_ok {operation : Operation} {active recorded : Inventory} {u : Unit}
    (hgit : git.Reports R) (h : requireFresh git main operation active recorded = .ok u)
    (hoperation : operation = .fresh) (henforce : active.enforce = true) :
    recorded.blobs.paths = active.blobs.paths ∧
      ∀ entry ∈ recorded.blobs.entries, RegularBlob R main entry.1 entry.2 := by
  unfold requireFresh at h
  rw [if_pos ⟨hoperation, henforce⟩] at h
  split_ifs at h with hpaths
  exact ⟨not_not.mp (not_or.mp hpaths).2, requireCurrent_eq_ok hgit h⟩

theorem historicalPaths_eq_ok {recorded : Inventory} {paths : List Text} (hgit : git.Reports R)
    (h : historicalPaths git json line recorded = .ok paths)
    (hpaths : recorded.blobs.paths = paths) : Historical R json line recorded := by
  obtain ⟨path, hpath, h⟩ := bind_eq_ok_iff.mp h
  obtain ⟨tree, hls, h⟩ := bind_eq_ok_iff.mp h
  split_ifs at h with htree henforce
  · obtain ⟨seed, hseed, h⟩ := bind_eq_ok_iff.mp h
    cases h
    obtain ⟨text, htext, hmem⟩ := seedInventory_eq_ok hgit hseed
    rw [htree] at hls
    refine .seed hpath (hgit.absent hls) htext (Bool.not_eq_false _ ▸ henforce) fun p => ?_
    rw [hpaths, hmem]
  · obtain ⟨historical, hhistorical, h⟩ := bind_eq_ok_iff.mp h
    split_ifs at h with hauthority
    cases h
    obtain ⟨hanchor, henforce⟩ := not_or.mp hauthority
    exact .inventory (inventory_eq_ok hgit hhistorical) (not_not.mp hanchor)
      (not_not.mp henforce) hpaths

/-- The blanks that are taken off are at the ends: between two signs that are seen, a line
feed stays. -/
theorem mem_trim_of_visible {c d : Char} {front behind : Text} (hc : isWhitespace c = false)
    (hd : isWhitespace d = false) : '\n' ∈ trim (c :: front ++ '\n' :: d :: behind) := by
  have hstart : trimStart (c :: front ++ '\n' :: d :: behind) =
      c :: front ++ '\n' :: d :: behind := by
    refine List.dropWhile_cons_of_neg ?_
    rw [hc]
    exact Bool.false_ne_true
  have hend : ∀ l : Text, ∃ l', (l ++ d :: '\n' :: (c :: front).reverse).dropWhile isWhitespace =
      l' ++ d :: '\n' :: (c :: front).reverse := by
    intro l
    induction l with
    | nil =>
      refine ⟨[], List.dropWhile_cons_of_neg ?_⟩
      rw [hd]
      exact Bool.false_ne_true
    | cons x l ih =>
      rw [List.cons_append, List.dropWhile_cons]
      split_ifs
      · exact ih
      · exact ⟨x :: l, rfl⟩
  obtain ⟨l', hl'⟩ := hend behind.reverse
  have hreverse : (c :: front ++ '\n' :: d :: behind).reverse =
      behind.reverse ++ d :: '\n' :: (c :: front).reverse := by simp
  unfold trim
  rw [hstart, hreverse, hl']
  simp

/-- Where one of the names is all that is listed, it is the one name. -/
theorem eq_singleton_of_trim {names : List Text} {path : Text} (hpath : '\n' ∉ path)
    (hvisible : ∀ name ∈ names, ∃ c rest, name = c :: rest ∧ isWhitespace c = false)
    (hmem : path ∈ names) (h : trim (['\n'].intercalate names) = path) : names = [path] := by
  rcases names with _ | ⟨first, _ | ⟨second, rest⟩⟩
  · cases hmem
  · rw [List.mem_singleton.mp hmem]
  · obtain ⟨c, front, rfl, hc⟩ := hvisible first List.mem_cons_self
    obtain ⟨d, behind, rfl, hd⟩ := hvisible second (List.mem_cons_of_mem _ List.mem_cons_self)
    have hjoined : ∃ others, ['\n'].intercalate ((c :: front) :: (d :: behind) :: rest) =
        c :: front ++ '\n' :: d :: others := by
      cases rest with
      | nil => exact ⟨behind, by simp [List.intercalate, List.intersperse]⟩
      | cons third rest =>
        exact ⟨behind ++ '\n' :: ['\n'].intercalate (third :: rest),
          by simp [List.intercalate, List.intersperse]⟩
    obtain ⟨others, hjoined⟩ := hjoined
    rw [hjoined] at h
    exact (hpath (h ▸ mem_trim_of_visible hc hd)).elim

theorem inventoryPath_support {major minor : Nat} {path : Text}
    (h : inventoryPath (.support major minor) = .ok path) :
    '\n' ∉ path ∧ supportLinesDir <+: path := by
  cases h
  have hdigits : ∀ n, '\n' ∉ digits n := by
    intro n hmem
    have hdigit := List.all_eq_true.mp (all_isDigit_digits n) '\n' hmem
    exact absurd hdigit (by decide)
  constructor
  · simp [hdigits]
  · exact (List.prefix_append supportLinesDir (digits major)).trans
      ((List.prefix_append _ ('.' :: digits minor)).trans (List.prefix_append _ _))

theorem loadAnchor_eq_ok {operation : Operation} {major minor : Nat} {anchor : Option Text}
    (hgit : git.Reports R)
    (h : loadAnchor git json main source (.support major minor) operation = .ok anchor) :
    ∃ active recorded, anchor = some active.anchor ∧
      Supported R json (.support major minor) operation main source active recorded := by
  obtain ⟨path, hpath, h⟩ := bind_eq_ok_iff.mp h
  obtain ⟨inventories, hinventories, h⟩ := bind_eq_ok_iff.mp h
  split_ifs at h with hsole
  obtain ⟨active, hactive, h⟩ := bind_eq_ok_iff.mp h
  obtain ⟨recorded, hrecorded, h⟩ := bind_eq_ok_iff.mp h
  split_ifs at h with hanchor
  obtain ⟨_, -, h⟩ := bind_eq_ok_iff.mp h
  obtain ⟨_, -, h⟩ := bind_eq_ok_iff.mp h
  obtain ⟨fork, hfork, h⟩ := bind_eq_ok_iff.mp h
  split_ifs at h with hsame
  obtain ⟨_, hchain, h⟩ := bind_eq_ok_iff.mp h
  obtain ⟨_, hfresh, h⟩ := bind_eq_ok_iff.mp h
  cases h
  obtain ⟨_, hpolicy, hchain⟩ := bind_eq_ok_iff.mp hchain
  obtain ⟨paths, hpaths, hchain⟩ := bind_eq_ok_iff.mp hchain
  split_ifs at hchain with hhistorical
  have hatMain := inventory_eq_ok hgit hactive
  have hchain := requireChain_eq_ok hgit hchain
  have hfork := hgit.mergeBase hfork
  rw [not_not.mp hsame] at hfork
  refine ⟨active, recorded, rfl, ⟨path, hpath, ?_⟩, hatMain, inventory_eq_ok hgit hrecorded,
    not_not.mp hanchor, hfork, ancestor_eq_ok hgit hpolicy,
    historicalPaths_eq_ok hgit hpaths (not_not.mp hhistorical), hchain, ?_⟩
  · obtain ⟨hline, hdir⟩ := inventoryPath_support hpath
    obtain ⟨path', e, hpath', he, -, hkind⟩ := hatMain.entry
    rw [hpath] at hpath'
    cases hpath'
    have htext := hgit.supportLines hinventories
    rw [not_not.mp hsole] at htext
    exact eq_singleton_of_trim hline (fun _ => R.visible) (R.listed he hkind hdir) htext.symm
  · intro hoperation henforce p hp
    obtain ⟨hsamePaths, hcurrent⟩ := requireFresh_eq_ok hgit hfresh hoperation henforce
    rw [← hsamePaths] at hp
    obtain ⟨entry, hentry, rfl⟩ := List.mem_map.mp hp
    exact ⟨entry.2, (hchain entry hentry).1, hcurrent entry hentry⟩

theorem load_eq_ok {operation : Operation} {binding : Binding}
    (h : Binding.load git json main source line operation = .ok binding) :
    ∃ anchor, loadAnchor git json main source line operation = .ok anchor ∧
      binding = ⟨line, operation, main, source, anchor⟩ := by
  unfold Binding.load at h
  split_ifs at h
  obtain ⟨anchor, hanchor, h⟩ := bind_eq_ok_iff.mp h
  cases h
  exact ⟨anchor, hanchor, rfl⟩

/-- The bound source of a support line: whatever the inventories and their paths, a binding
is made of a source only that is supported, and its anchor is where the line left main. -/
theorem load_binds {operation : Operation} {major minor : Nat} {binding : Binding}
    (hgit : git.Reports R)
    (h : Binding.load git json main source (.support major minor) operation = .ok binding) :
    ∃ active recorded,
      binding = ⟨.support major minor, operation, main, source, some active.anchor⟩ ∧
      Supported R json (.support major minor) operation main source active recorded := by
  obtain ⟨anchor, hanchor, rfl⟩ := load_eq_ok h
  obtain ⟨active, recorded, rfl, hsupported⟩ := loadAnchor_eq_ok hgit hanchor
  exact ⟨active, recorded, rfl, hsupported⟩

end

/-! ## A line with one release -/

def sampleAnchor : Text := List.replicate 40 'a'

def sampleMain : Text := List.replicate 40 'b'

def sampleSource : Text := List.replicate 40 'c'

def sampleInventoryPath : Text := ".github/support-lines/0.5.json".toList

/-- Main and the line both stand on the anchor. -/
def sampleHistory : History Text where
  commit c := c = sampleAnchor ∨ c = sampleMain ∨ c = sampleSource
  parent c p := (c = sampleMain ∨ c = sampleSource) ∧ p = sampleAnchor
  closed := by
    rintro c p - ⟨-, rfl⟩
    exact .inl rfl
  acyclic := by
    intro c h
    obtain ⟨b, ⟨hc, -⟩, -⟩ := Relation.TransGen.head'_iff.mp h
    obtain ⟨b', -, -, rfl⟩ := Relation.TransGen.tail'_iff.mp h
    revert hc
    decide

def sampleEntry : Entry where
  mode := "100644".toList
  kind := "blob".toList
  object := List.replicate 40 'd'
  plain := by simp

/-- The inventory as it is stored. -/
def sampleInventoryText : Text :=
  "\x7b\"schema_version\":1,\"base_ref\":\"".toList ++ (ReleaseLine.support 0 5).baseRef ++
    "\",\"anchor\":\"".toList ++ sampleAnchor ++
    "\",\"policy_commit\":\"".toList ++ sampleAnchor ++
    "\",\"enforce\":true,\"blobs\":\x7b\"policy.txt\":\"".toList ++ List.replicate 40 'd' ++
    "\"\x7d\x7d".toList

/-- One policy path, which is the seed of the anchor. -/
def sampleRepository : Repository where
  history := sampleHistory
  entry commit path :=
    if path = "policy.txt".toList ∨ path = sampleInventoryPath ∧ commit ≠ sampleAnchor then
      some sampleEntry
    else none
  text commit path :=
    if commit = sampleAnchor then if path = seedPath then some "policy.txt".toList else none
    else if path = sampleInventoryPath then some sampleInventoryText else none
  supportLines commit := if commit = sampleAnchor then [] else [sampleInventoryPath]
  visible := by
    intro commit name h
    split_ifs at h
    · cases h
    · cases List.mem_singleton.mp h
      exact ⟨_, _, rfl, by decide⟩
  listed := by
    intro commit path e he hkind hdir
    split_ifs at he with hpath
    rcases hpath with rfl | ⟨rfl, hcommit⟩
    · exact absurd hdir (by decide)
    · rw [if_neg hcommit]
      exact List.mem_cons_self

def sampleGit : Git where
  lsTree commit path :=
    .ok (match sampleRepository.entry commit path with
      | some e => e.row path
      | none => [])
  supportLines commit := .ok (trim (['\n'].intercalate (sampleRepository.supportLines commit)))
  showFile commit path :=
    match sampleRepository.text commit path with
    | some text => .ok text
    | none => .error "not found".toList
  mergeBase a b := if a = sampleSource ∧ b = sampleMain then .ok sampleAnchor else .error []
  isAncestor older newer :=
    if older = sampleAnchor ∧
        (newer = sampleAnchor ∨ newer = sampleMain ∨ newer = sampleSource) then .ok ()
    else .error []

/-- The library reads this one inventory, and no other text. -/
def sampleJson : Json where
  inventory data :=
    if data = sampleInventoryText then
      .ok ⟨1, (ReleaseLine.support 0 5).baseRef, sampleAnchor, sampleAnchor, true,
        [("policy.txt".toList, List.replicate 40 'd')]⟩
    else .error "expected value".toList
  custom _ message := message

theorem ancestor_sampleAnchor {c : Text} (hc : c = sampleMain ∨ c = sampleSource) :
    sampleHistory.Ancestor sampleAnchor c := Relation.ReflTransGen.single ⟨hc, rfl⟩

theorem fork_sampleAnchor : sampleHistory.Fork sampleSource sampleMain sampleAnchor := by
  refine ⟨ancestor_sampleAnchor (.inr rfl), ancestor_sampleAnchor (.inl rfl),
    fun x hsource hmain hanchor => ?_⟩
  rcases Relation.ReflTransGen.cases_head hsource with rfl | ⟨b, ⟨-, rfl⟩, hrest⟩
  · rcases Relation.ReflTransGen.cases_head hmain with h | ⟨b, ⟨-, rfl⟩, hrest⟩
    · revert h
      decide
    · exact History.Ancestor.antisymm hrest hanchor
  · exact History.Ancestor.antisymm hrest hanchor

theorem reports_sampleGit : sampleGit.Reports sampleRepository where
  lsTree := by
    intro commit path row hrow hsuffix _
    have hrow := (Except.ok.inj hrow).symm
    cases he : sampleRepository.entry commit path with
    | none =>
      rw [he] at hrow
      subst hrow
      exact (List.cons_ne_nil _ _ (List.suffix_nil.mp hsuffix)).elim
    | some e =>
      rw [he] at hrow
      exact ⟨e, rfl, hrow⟩
  absent := by
    intro commit path hrow
    have hrow := Except.ok.inj hrow
    cases he : sampleRepository.entry commit path with
    | none => rfl
    | some e =>
      rw [he] at hrow
      simp [Entry.row] at hrow
  supportLines h := (Except.ok.inj h).symm
  showFile := by
    intro commit path text h
    simp only [sampleGit] at h
    cases htext : sampleRepository.text commit path with
    | none =>
      rw [htext] at h
      cases h
    | some found =>
      rw [htext] at h
      cases h
      rfl
  mergeBase := by
    intro a b m h
    simp only [sampleGit] at h
    split_ifs at h with hab
    obtain ⟨rfl, rfl⟩ := hab
    cases h
    exact fork_sampleAnchor
  isAncestor := by
    intro older newer u h
    simp only [sampleGit] at h
    split_ifs at h with hab
    obtain ⟨rfl, hnewer⟩ := hab
    rcases hnewer with rfl | hnewer
    · exact .refl _
    · exact ancestor_sampleAnchor hnewer

theorem load_sampleGit : Binding.load sampleGit sampleJson sampleMain sampleSource (.support 0 5)
    .fresh = .ok ⟨.support 0 5, .fresh, sampleMain, sampleSource, some sampleAnchor⟩ := by
  decide +kernel

theorem load_binds_sampleGit : ∃ active recorded,
    (⟨.support 0 5, .fresh, sampleMain, sampleSource, some sampleAnchor⟩ : Binding) =
      ⟨.support 0 5, .fresh, sampleMain, sampleSource, some active.anchor⟩ ∧
    Supported sampleRepository sampleJson (.support 0 5) .fresh sampleMain sampleSource active
      recorded :=
  load_binds reports_sampleGit load_sampleGit

/-! ## What is verified -/

/-- The forge: its history, and the refs of its branches. -/
abbrev Remote := Named Text Text

def mainRef : Text := "refs/heads/main".toList

/-- The refs of release lines only move forward. -/
def Protected (name : Text) : Prop := ∃ line : ReleaseLine, name = line.baseRef

theorem protected_base (line : ReleaseLine) : Protected line.baseRef := ⟨line, rfl⟩

/-- An answer is about the forge as it is then. -/
def Truthful (r : Remote) : (q : Query) → Reply q → Prop
  | .ref _, answer => ∀ reference, answer = .ok reference →
    reference.kind = "commit".toList → r.refs reference.name = some reference.sha
  | .compare source tip, answer => ∀ comparison, answer = .ok comparison →
    comparison.base = source → r.history.commit source ∧ r.history.commit tip ∧
      r.history.Fork source tip comparison.mergeBase

/-- Between two answers the forge goes on. -/
def remoteWorld : World Query Reply Remote :=
  fun q r a r' => Named.Moves Protected r r' ∧ Truthful r' q a

/-- The forge now, and the answers so far, each with the moment it was given. -/
abbrev Watch := Watched Query Remote

/-- What a step of a verification comes to: the forge has gone on. -/
abbrev Verifies {α : Type} (ok : α → Watch → Prop) : Verifying α → Watch → Prop :=
  Dialogue.Tries remoteWorld.watched (fun w w' => Named.Moves Protected w.now w'.now) ok
    fun _ => True

/-- The question about a ref. -/
def refQuery (base : Text) : Query := .ref (base.drop "refs/".toList.length)

/-- From `w` to `w'` these questions were answered, one after the other. -/
structure Answered (w w' : Watch) (questions : List Query) (answers : List (Query × Remote)) :
    Prop where
  moves : Named.Moves Protected w.now w'.now
  answered : w'.answered = w.answered ++ answers
  questions : answers.map Prod.fst = questions
  within : ∀ e ∈ answers, Named.Moves Protected w.now e.2 ∧ Named.Moves Protected e.2 w'.now

theorem Answered.nil (w : Watch) : Answered w w [] [] :=
  ⟨.refl _, (List.append_nil _).symm, rfl, fun _ h => (List.not_mem_nil h).elim⟩

theorem Answered.one {w w' : Watch} {q : Query} (hmoves : Named.Moves Protected w.now w'.now)
    (h : w'.answered = w.answered ++ [(q, w'.now)]) : Answered w w' [q] [(q, w'.now)] := by
  refine ⟨hmoves, h, rfl, fun e he => ?_⟩
  rw [List.mem_singleton.mp he]
  exact ⟨hmoves, .refl _⟩

theorem Answered.trans {w w' w'' : Watch} {questions questions' : List Query}
    {answers answers' : List (Query × Remote)} (h : Answered w w' questions answers)
    (h' : Answered w' w'' questions' answers') :
    Answered w w'' (questions ++ questions') (answers ++ answers') where
  moves := h.moves.trans h'.moves
  answered := by rw [h'.answered, h.answered, List.append_assoc]
  questions := by rw [List.map_append, h.questions, h'.questions]
  within := by
    intro e he
    rcases List.mem_append.mp he with he | he
    · exact ⟨(h.within e he).1, (h.within e he).2.trans h'.moves⟩
    · exact ⟨h.moves.trans (h'.within e he).1, (h'.within e he).2⟩

section
variable {w₀ : Watch}

theorem verifies_fail {α : Type} (text : String) (ok : α → Watch → Prop) :
    Verifies ok (fail text) w₀ := trivial

/-- A ref that is read has been at its commit. -/
theorem readRef_verifies (base : Text) :
    Verifies (fun tip w => Answered w₀ w [refQuery base] [(refQuery base, w.now)] ∧
      w.now.refs base = some tip) (readRef base) w₀ := by
  unfold readRef
  cases hbranch : "refs/".toList.isPrefixOf? base with
  | none => exact trivial
  | some branch =>
    have hquery : Query.ref branch = refQuery base := by
      rw [isPrefixOf?_eq_some.mp hbranch, refQuery, List.drop_left]
    intro a w hw
    obtain ⟨⟨hmoves, htruthful⟩, hanswered⟩ := hw
    refine ⟨hmoves, ?_⟩
    rw [hquery] at hanswered
    cases a with
    | error e => exact trivial
    | ok reference =>
      show Verifies _ (if _ then _ else _) w
      split_ifs with hbad
      · exact trivial
      · simp only [not_or, not_not] at hbad
        obtain ⟨hname, hkind, -⟩ := hbad
        have htip := htruthful reference rfl hkind
        rw [hname] at htip
        exact ⟨.one hmoves hanswered, htip⟩

/-- The fork of two commits of the forge. -/
theorem compareCommits_verifies (source tip : Text) :
    Verifies (fun comparison w =>
      Answered w₀ w [.compare source tip] [(.compare source tip, w.now)] ∧
      (comparison.base = source → w.now.history.commit source ∧ w.now.history.commit tip ∧
        w.now.history.Fork source tip comparison.mergeBase)) (compareCommits source tip) w₀ := by
  intro a w hw
  obtain ⟨⟨hmoves, htruthful⟩, hanswered⟩ := hw
  refine ⟨hmoves, ?_⟩
  cases a with
  | error e => exact trivial
  | ok comparison => exact ⟨.one hmoves hanswered, htruthful comparison rfl⟩

/-- A fork of commits that are there, which stays. -/
def Forks (r : Remote) (a b m : Text) : Prop :=
  r.history.commit a ∧ r.history.commit b ∧ r.history.Fork a b m

theorem Forks.moves {r r' : Remote} {a b m : Text} (h : Forks r a b m)
    (hmoves : Named.Moves Protected r r') : Forks r' a b m :=
  ⟨hmoves.grows.commit h.1, hmoves.grows.commit h.2.1, hmoves.grows.fork h.1 h.2.1 h.2.2⟩

theorem requireAnchor_verifies (main anchor : Text) (commits : List Text) (w₀ : Watch) :
    Verifies (fun _ w => (∃ answers, Answered w₀ w (commits.map (.compare · main)) answers) ∧
      ∀ c ∈ commits, Forks w.now c main anchor) (requireAnchor main anchor commits) w₀ := by
  induction commits generalizing w₀ with
  | nil => exact ⟨⟨[], .nil w₀⟩, fun _ h => (List.not_mem_nil h).elim⟩
  | cons commit rest ih =>
    refine (compareCommits_verifies commit main).bind fun comparison w hw _ => ?_
    obtain ⟨hfirst, hcomparison⟩ := hw
    split_ifs with hbad
    · exact verifies_fail _ _
    · simp only [not_or, not_not] at hbad
      obtain ⟨hbase, hanchor⟩ := hbad
      have hforks := hcomparison hbase
      rw [hanchor] at hforks
      refine (ih w).mono fun _ w' hw' => ?_
      obtain ⟨⟨answers, hrest⟩, hothers⟩ := hw'
      refine ⟨⟨_, hfirst.trans hrest⟩, ?_⟩
      exact List.forall_mem_cons.mpr ⟨Forks.moves hforks hrest.moves, hothers⟩

/-- The comparisons behind the first one. -/
def Binding.anchorQueries (binding : Binding) (base : Text) : List Query :=
  match binding.anchor with
  | none => []
  | some _ => [binding.source, base].map (.compare · binding.main)

theorem verifyAnchor_verifies (binding : Binding) (base : Text) (w₀ : Watch) :
    Verifies (fun _ w => (∃ answers, Answered w₀ w (binding.anchorQueries base) answers) ∧
      ∀ anchor, binding.anchor = some anchor →
        ∀ c ∈ [binding.source, base], Forks w.now c binding.main anchor)
      (binding.verifyAnchor base) w₀ := by
  unfold Binding.verifyAnchor Binding.anchorQueries
  cases binding.anchor with
  | none => exact ⟨⟨[], .nil w₀⟩, fun _ h => by cases h⟩
  | some anchor =>
    refine (requireAnchor_verifies binding.main anchor _ w₀).mono fun _ w hw => ⟨hw.1, ?_⟩
    intro anchor' h
    cases h
    exact hw.2

/-- What holds of a binding when it is verified from `w₀` to `w`: `first` and `last` are the
moments at which the base was read. -/
structure Holds (binding : Binding) (w₀ w : Watch) (base : Text) (first last : Remote) :
    Prop where
  /-- All comparisons were answered between the two. -/
  answered : ∃ compared, w.answered = w₀.answered ++
      ((refQuery binding.line.baseRef, first) :: compared ++
        [(refQuery binding.line.baseRef, last), (refQuery mainRef, w.now)]) ∧
    compared.map Prod.fst = .compare binding.source base :: binding.anchorQueries base ∧
    ∀ e ∈ compared, Named.Moves Protected first e.2 ∧ Named.Moves Protected e.2 last
  stretch : Named.Moves Protected w₀.now first ∧ Named.Moves Protected first last ∧
    Named.Moves Protected last w.now
  /-- Main is the main that is bound. -/
  main : w.now.refs mainRef = some binding.main
  /-- From the one moment to the other the base was at one commit. -/
  still : ∀ r, Named.Moves Protected first r → Named.Moves Protected r last →
    r.refs binding.line.baseRef = some base
  fresh : binding.operation = .fresh → base = binding.source
  /-- The source is on the lineage of the base, from the first moment on. -/
  lineage : ∀ r, Named.Moves Protected first r → ∃ tip,
    r.refs binding.line.baseRef = some tip ∧ r.history.Ancestor binding.source tip
  fork : ∀ anchor, binding.anchor = some anchor →
    w.now.history.Fork binding.source binding.main anchor ∧
      w.now.history.Fork base binding.main anchor
  /-- Of what main has got on top of the anchor, nothing is on the lineage of the base. -/
  apart : ∀ anchor, binding.anchor = some anchor → ∀ c, w.now.history.Ancestor anchor c →
    w.now.history.Ancestor c binding.main → w.now.history.Ancestor c base → c = anchor

/-- A commit that is on the lineage of a base was there when the base was. -/
theorem lineage_of_later {first later : Remote} {line : ReleaseLine} {base source : Text}
    (hmoves : Named.Moves Protected first later) (hbase : first.refs line.baseRef = some base)
    (hlineage : later.history.Ancestor source base) {r : Remote}
    (hr : Named.Moves Protected first r) :
    ∃ tip, r.refs line.baseRef = some tip ∧ r.history.Ancestor source tip := by
  obtain ⟨tip, htip, hforward⟩ := hr.forward (protected_base line) hbase
  have hfirst := (hmoves.grows.ancestor_iff (first.known hbase)).mpr hlineage
  exact ⟨tip, htip, ((hr.grows.ancestor_iff (first.known hbase)).mp hfirst).trans hforward⟩

/-- Whatever happens to the forge in the meantime, a binding that is verified holds. -/
theorem verify_holds (binding : Binding) (w₀ : Watch) :
    Verifies (fun _ w => ∃ base first last, Holds binding w₀ w base first last) binding.verify
      w₀ := by
  refine (readRef_verifies binding.line.baseRef).bind fun base w₁ hw₁ _ => ?_
  obtain ⟨hread₁, hbase⟩ := hw₁
  split_ifs with hfresh
  · exact verifies_fail _ _
  refine (compareCommits_verifies binding.source base).bind fun comparison w₂ hw₂ _ => ?_
  obtain ⟨hcompared, hcomparison⟩ := hw₂
  split_ifs with hbad
  · exact verifies_fail _ _
  simp only [not_or, not_not] at hbad
  obtain ⟨-, hsource, hmergeBase⟩ := hbad
  have hlineage := hcomparison hsource
  rw [hmergeBase] at hlineage
  refine (verifyAnchor_verifies binding base w₂).bind fun _ w₃ hw₃ _ => ?_
  obtain ⟨⟨answers, hanchored⟩, hforks⟩ := hw₃
  refine (readRef_verifies binding.line.baseRef).bind fun again w₄ hw₄ _ => ?_
  obtain ⟨hread₂, hagain⟩ := hw₄
  split_ifs with hmoved
  · exact verifies_fail _ _
  refine (readRef_verifies "refs/heads/main".toList).bind fun main w hw _ => ?_
  obtain ⟨hreadMain, hmain⟩ := hw
  split_ifs with hpolicy
  · exact verifies_fail _ _
  rw [not_not.mp hmoved] at hagain
  rw [not_not.mp hpolicy] at hmain
  have hstretch := hcompared.trans hanchored
  have hfork : ∀ anchor, binding.anchor = some anchor →
      w.now.history.Fork binding.source binding.main anchor ∧
        w.now.history.Fork base binding.main anchor := by
    intro anchor h
    have hforks := hforks anchor h
    have hlater := hread₂.moves.trans hreadMain.moves
    exact ⟨(Forks.moves (hforks _ (by simp)) hlater).2.2,
      (Forks.moves (hforks _ (by simp)) hlater).2.2⟩
  refine ⟨base, w₁.now, w₄.now, ⟨_, ?_, hstretch.questions, fun e he => ?_⟩,
    ⟨hread₁.moves, hstretch.moves.trans hread₂.moves, hreadMain.moves⟩, hmain,
    fun r h h' => h.still h' (protected_base _) hbase hagain,
    fun h => not_not.mp fun hne => hfresh ⟨h, hne⟩,
    fun r hr => lineage_of_later hcompared.moves hbase hlineage.2.2.ancestor hr, hfork, ?_⟩
  · rw [hreadMain.answered, hread₂.answered, hstretch.answered, hread₁.answered]
    simp only [List.append_assoc, List.cons_append, List.nil_append]
    rfl
  · exact ⟨(hstretch.within e he).1, (hstretch.within e he).2.trans hread₂.moves⟩
  · intro anchor h c hanchor hmain hbase
    exact (hfork anchor h).2.best c hbase hmain hanchor

end

end Provenance
end Release
end YamlSigil
