/-
Inventories of a support line, and the Git objects they name.

An inventory of a line stands in a commit.  It names the anchor of the line, a commit of the
protected main, and for each policy path the blob that the path had there.
-/
import YamlSigil.Core.SignatureKeys
import YamlSigil.Format.CommitGraph
import YamlSigil.Release.Progression

namespace YamlSigil
namespace Release

open YamlSigil.Core Format.SemVer

/-! ## Maps of paths -/

/-- `BTreeMap<String, String>`: each path once, in the order of paths. -/
structure Blobs where
  entries : List (Text × Text)
  sorted : entries.Pairwise fun a b => a.1 < b.1

namespace Blobs

def empty : Blobs := ⟨[], .nil⟩

def paths (blobs : Blobs) : List Text := blobs.entries.map Prod.fst

def placed (entry : Text × Text) : List (Text × Text) → List (Text × Text)
  | [] => [entry]
  | other :: rest =>
    if entry.1 < other.1 then entry :: other :: rest else other :: placed entry rest

theorem mem_placed {entry other : Text × Text} {entries : List (Text × Text)} :
    other ∈ placed entry entries ↔ other = entry ∨ other ∈ entries := by
  induction entries with
  | nil => simp [placed]
  | cons first rest ih =>
    unfold placed
    split_ifs
    · simp
    · simp only [List.mem_cons, ih]
      tauto

theorem sorted_placed {entry : Text × Text} {entries : List (Text × Text)}
    (hnew : entry.1 ∉ entries.map Prod.fst)
    (hsorted : entries.Pairwise fun a b => a.1 < b.1) :
    (placed entry entries).Pairwise fun a b => a.1 < b.1 := by
  induction entries with
  | nil => exact List.pairwise_singleton _ _
  | cons first rest ih =>
    rw [List.map_cons, List.mem_cons, not_or] at hnew
    obtain ⟨hfirst, hrest⟩ := List.pairwise_cons.mp hsorted
    unfold placed
    split_ifs with hlt
    · refine List.pairwise_cons.mpr ⟨fun other hother => ?_, hsorted⟩
      rcases List.mem_cons.mp hother with rfl | hother
      · exact hlt
      · exact List.lt_trans hlt (hfirst other hother)
    · refine List.pairwise_cons.mpr ⟨fun other hother => ?_, ih hnew.2 hrest⟩
      rcases mem_placed.mp hother with rfl | hother
      · exact lt_of_le_of_ne (not_lt.mp hlt) fun h => hnew.1 h.symm
      · exact hfirst other hother

/-- `BTreeMap::insert` of a path that is not there. -/
def insert (blobs : Blobs) (path sha : Text) : Option Blobs :=
  if h : blobs.paths.contains path = true then none
  else
    have habsent := mt List.contains_iff_mem.mpr h
    some ⟨placed (path, sha) blobs.entries, sorted_placed habsent blobs.sorted⟩

theorem mem_insert {blobs blobs' : Blobs} {path sha : Text}
    (h : blobs.insert path sha = some blobs') {entry : Text × Text} :
    entry ∈ blobs'.entries ↔ entry = (path, sha) ∨ entry ∈ blobs.entries := by
  unfold insert at h
  split_ifs at h
  cases h
  exact mem_placed

end Blobs

/-! ## Git -/

/-- What `git` prints about one repository, without the blanks around it. -/
structure Git where
  lsTree : (commit path : Text) → Except Text Text
  supportLines : (commit : Text) → Except Text Text
  showFile : (commit path : Text) → Except Text Text
  mergeBase : (a b : Text) → Except Text Text
  isAncestor : (older newer : Text) → Except Text Unit

def requirePath (path : Text) : Except Text Unit :=
  if path.isEmpty ∨ path.head? = some '/' ∨
      ".github/support-lines/".toList.isPrefixOf path = true ∨
      (path.splitOn '/').any
        (fun part => part = [] ∨ part = ".".toList ∨ part = "..".toList) = true ∨
      ¬path.all (fun c => c.isAlphanum || c == '-' || c == '.' || c == '_' || c == '/') = true then
    .error "invalid support policy path or self-referential inventory".toList
  else .ok ()

/-- The blob of a path in the tree of a commit. -/
def blob (git : Git) (commit path : Text) : Except Text Text := do
  requirePath path
  if isSha commit = false then .error "policy commit must be a full lowercase SHA".toList
  else
    let row ← git.lsTree commit path
    match splitOnce '\t' row with
    | none => .error "policy path is absent".toList
    | some (metadata, actual) =>
      match metadata.splitOn ' ' with
      | [mode, kind, sha] =>
        if actual = path ∧ (mode = "100644".toList ∨ mode = "100755".toList) ∧
            kind = "blob".toList ∧ isSha sha = true then .ok sha
        else .error "support policy path is not one regular Git blob".toList
      | _ => .error "support policy path is not one regular Git blob".toList

/-! ## Inventories -/

structure Inventory where
  schemaVersion : Nat
  baseRef : Text
  anchor : Text
  policyCommit : Text
  enforce : Bool
  blobs : Blobs

/-- The fields of an inventory, its paths as they stand there. -/
structure RawInventory where
  schemaVersion : Nat
  baseRef : Text
  anchor : Text
  policyCommit : Text
  enforce : Bool
  blobs : List (Text × Text)
deriving Repr, DecidableEq

/-- The JSON library: the fields of an inventory, and how it reports an error of the visitor
of its paths. -/
structure Json where
  inventory : Text → Except Text RawInventory
  custom : (data message : Text) → Text

def maxPaths : Nat := 256

/-- A path that comes twice does not replace what was expected of it. -/
def uniqueBlobs : Blobs → List (Text × Text) → Option Blobs
  | blobs, [] => some blobs
  | blobs, (path, sha) :: rest =>
    if maxPaths ≤ blobs.entries.length then none
    else
      match blobs.insert path sha with
      | none => none
      | some blobs => uniqueBlobs blobs rest

def decodeInventory (json : Json) (data : Text) : Except Text Inventory :=
  match json.inventory data with
  | .error e => .error ("invalid support inventory: ".toList ++ e)
  | .ok raw =>
    match uniqueBlobs Blobs.empty raw.blobs with
    | none =>
      .error ("invalid support inventory: ".toList ++
        json.custom data "duplicate or excessive policy paths".toList)
    | some blobs =>
      .ok ⟨raw.schemaVersion, raw.baseRef, raw.anchor, raw.policyCommit, raw.enforce, blobs⟩

def inventoryPath : ReleaseLine → Except Text Text
  | .main => .error "main has no support inventory".toList
  | .support major minor =>
    .ok (".github/support-lines/".toList ++ digits major ++ '.' :: digits minor ++ ".json".toList)

def maxInventoryBytes : Nat := 128 * 1024

def requireBlobs : List (Text × Text) → Except Text Unit
  | [] => .ok ()
  | (path, sha) :: rest => do
    requirePath path
    if isSha sha = false then .error "support inventory blob is not a full object ID".toList
    else requireBlobs rest

def inventory (git : Git) (json : Json) (commit : Text) (line : ReleaseLine) :
    Except Text Inventory := do
  let path ← inventoryPath line
  -- the inventory itself is one regular blob, though its path is no policy path
  let tree ← git.lsTree commit path
  if "100644 blob ".toList.isPrefixOf tree = false ∨ ('\t' :: path).isSuffixOf tree = false ∨
      '\n' ∈ tree then
    .error "support inventory is not one regular Git blob".toList
  else
    let data ← git.showFile commit path
    if (asBytes data).length > maxInventoryBytes then
      .error "support inventory exceeds its bound".toList
    else
      let value ← decodeInventory json data
      if value.schemaVersion ≠ 1 ∨ value.baseRef ≠ line.baseRef ∨ isSha value.anchor = false ∨
          isSha value.policyCommit = false ∨ value.blobs.entries = [] ∨
          maxPaths < value.blobs.entries.length then
        .error "support inventory identity or path count is invalid".toList
      else do
        requireBlobs value.blobs.entries
        .ok value

def seedPath : Text := ".github/support-policy-paths.txt".toList

/-- The blobs of the seeded paths, as they are in a commit. -/
def seedBlobs (git : Git) (commit : Text) : Blobs → List Text → Except Text Blobs
  | blobs, [] => .ok blobs
  | blobs, path :: rest => do
    requirePath path
    let sha ← blob git commit path
    match blobs.insert path sha with
    | none => .error "duplicate support policy seed path".toList
    | some blobs => seedBlobs git commit blobs rest

/-- The lines of a seed that are no comments. -/
def seedPaths (seed : Text) : List Text :=
  (strLines seed).filter fun line => !line.isEmpty && line.head? != some '#'

def seedInventory (git : Git) (line : ReleaseLine) (anchor main : Text) :
    Except Text Inventory := do
  let seed ← git.showFile main seedPath
  let blobs ← seedBlobs git main Blobs.empty (seedPaths seed)
  if blobs.entries = [] ∨ maxPaths < blobs.entries.length then
    .error "support policy inventory must contain 1 through 256 paths".toList
  else .ok ⟨1, line.baseRef, anchor, main, true, blobs⟩

/-! ## What a repository holds -/

/-- An entry of a tree, whose fields have no separators. -/
structure Entry where
  mode : Text
  kind : Text
  object : Text
  plain : ∀ c ∈ mode ++ kind ++ object, c ≠ ' ' ∧ c ≠ '\t'

/-- The entry as it is printed. -/
def Entry.row (e : Entry) (path : Text) : Text :=
  (e.mode ++ ' ' :: (e.kind ++ ' ' :: e.object)) ++ '\t' :: path

def supportLinesDir : Text := ".github/support-lines/".toList

/-- The commits and their trees.  The files below `.github/support-lines/` are listed with
their names, which begin with a sign that is seen. -/
structure Repository where
  history : Format.CommitGraph.History Text
  entry : (commit path : Text) → Option Entry
  text : (commit path : Text) → Option Text
  supportLines : (commit : Text) → List Text
  visible : ∀ {commit name}, name ∈ supportLines commit →
    ∃ c rest, name = c :: rest ∧ isWhitespace c = false
  listed : ∀ {commit path e}, entry commit path = some e → e.kind = "blob".toList →
    supportLinesDir <+: path → path ∈ supportLines commit

/-- What is printed is about the repository. -/
structure Git.Reports (git : Git) (R : Repository) : Prop where
  lsTree : ∀ {commit path row}, git.lsTree commit path = .ok row → ('\t' :: path) <:+ row →
    '\n' ∉ row → ∃ e, R.entry commit path = some e ∧ row = e.row path
  absent : ∀ {commit path}, git.lsTree commit path = .ok [] → R.entry commit path = none
  supportLines : ∀ {commit text}, git.supportLines commit = .ok text →
    text = trim (['\n'].intercalate (R.supportLines commit))
  showFile : ∀ {commit path text}, git.showFile commit path = .ok text →
    R.text commit path = some text
  mergeBase : ∀ {a b m}, git.mergeBase a b = .ok m → R.history.Fork a b m
  isAncestor : ∀ {older newer u}, git.isAncestor older newer = .ok u →
    R.history.Ancestor older newer

/-- The path is a regular file with this blob. -/
def RegularBlob (R : Repository) (commit path sha : Text) : Prop :=
  ∃ e, R.entry commit path = some e ∧ (e.mode = "100644".toList ∨ e.mode = "100755".toList) ∧
    e.kind = "blob".toList ∧ e.object = sha

theorem Entry.splitOn_metadata (e : Entry) :
    (e.mode ++ ' ' :: (e.kind ++ ' ' :: e.object)).splitOn ' ' = [e.mode, e.kind, e.object] := by
  have hplain : ∀ c ∈ e.mode ++ e.kind ++ e.object, c ≠ ' ' := fun c hc => (e.plain c hc).1
  rw [List.splitOn_append_cons_self_of_not_mem fun h => hplain ' ' (by simp [h]) rfl,
    List.splitOn_append_cons_self_of_not_mem fun h => hplain ' ' (by simp [h]) rfl,
    List.splitOn_eq_singleton fun h => hplain ' ' (by simp [h]) rfl]

section
variable {git : Git} {R : Repository} {commit path sha : Text}

theorem requirePath_eq_ok {u : Unit} (h : requirePath path = .ok u) : '\n' ∉ path := by
  unfold requirePath at h
  split_ifs at h with hbad
  intro hmem
  have hall := (not_or.mp (not_or.mp (not_or.mp (not_or.mp hbad).2).2).2).2
  rw [not_not, List.all_eq_true] at hall
  have := hall '\n' hmem
  revert this
  decide

theorem not_mem_of_isSha {c : Char} (hc : ¬(('0' ≤ c && c ≤ '9') || ('a' ≤ c && c ≤ 'f')) = true)
    (h : isSha sha = true) : c ∉ sha := by
  unfold isSha at h
  rw [Bool.and_eq_true, List.all_eq_true] at h
  exact fun hmem => hc (h.2 c hmem)

theorem blob_eq_ok (hgit : git.Reports R) (h : blob git commit path = .ok sha) :
    RegularBlob R commit path sha := by
  obtain ⟨_, hpath, h⟩ := bind_eq_ok_iff.mp h
  split_ifs at h with hcommit
  obtain ⟨row, hrow, h⟩ := bind_eq_ok_iff.mp h
  cases hsplit : splitOnce '\t' row with
  | none =>
    rw [hsplit] at h
    cases h
  | some parts =>
    obtain ⟨metadata, actual⟩ := parts
    rw [hsplit] at h
    dsimp only at h
    obtain ⟨rfl, -⟩ := splitOnce_eq_some_iff.mp hsplit
    split at h
    · next mode kind object hfields =>
      split_ifs at h with hregular
      cases h
      obtain ⟨rfl, hmode, rfl, hsha⟩ := hregular
      have hmetadata : metadata = mode ++ ' ' :: ("blob".toList ++ ' ' :: sha) := by
        have hjoined : [' '].intercalate (metadata.splitOn ' ') = metadata :=
          List.intercalate_splitOn ' '
        rw [hfields] at hjoined
        rw [← hjoined]
        simp [List.intercalate, List.intersperse]
      have hline : '\n' ∉ metadata ++ '\t' :: actual := by
        have hobject : '\n' ∉ sha := not_mem_of_isSha (by decide) hsha
        have hpath := requirePath_eq_ok hpath
        rw [hmetadata]
        rcases hmode with rfl | rfl
        · simp [hobject, hpath]
        · simp [hobject, hpath]
      obtain ⟨e, he, hrow⟩ := hgit.lsTree hrow (List.suffix_append _ _) hline
      have hentry := e.splitOn_metadata
      rw [← List.append_cancel_right hrow, hfields] at hentry
      obtain ⟨rfl, hkind, rfl⟩ : mode = e.mode ∧ "blob".toList = e.kind ∧ sha = e.object := by
        simpa using hentry
      exact ⟨e, he, hmode, hkind.symm, rfl⟩
    · cases h

/-- A text has one first separator. -/
theorem append_cons_inj {d : Char} {front front' behind behind' : Text} (h : d ∉ front)
    (h' : d ∉ front') (heq : front ++ d :: behind = front' ++ d :: behind') :
    front = front' ∧ behind = behind' := by
  have hsplit : splitOnce d (front ++ d :: behind) = some (front, behind) :=
    splitOnce_eq_some_iff.mpr ⟨rfl, h⟩
  rw [heq, splitOnce_eq_some_iff.mpr ⟨rfl, h'⟩] at hsplit
  cases hsplit
  exact ⟨rfl, rfl⟩

structure Inventory.Valid (line : ReleaseLine) (v : Inventory) : Prop where
  schemaVersion : v.schemaVersion = 1
  baseRef : v.baseRef = line.baseRef
  anchor : isSha v.anchor = true
  policyCommit : isSha v.policyCommit = true
  nonempty : v.blobs.entries ≠ []
  bounded : v.blobs.entries.length ≤ maxPaths
  blobs : ∀ entry ∈ v.blobs.entries, requirePath entry.1 = .ok () ∧ isSha entry.2 = true

/-- The inventory of the line in a commit: one regular file, and what it says. -/
structure Recorded (R : Repository) (json : Json) (line : ReleaseLine) (commit : Text)
    (v : Inventory) : Prop where
  entry : ∃ path e, inventoryPath line = .ok path ∧ R.entry commit path = some e ∧
    e.mode = "100644".toList ∧ e.kind = "blob".toList
  text : ∃ path data, inventoryPath line = .ok path ∧ R.text commit path = some data ∧
    decodeInventory json data = .ok v
  valid : v.Valid line

theorem requireBlobs_eq_ok {entries : List (Text × Text)} {u : Unit}
    (h : requireBlobs entries = .ok u) :
    ∀ entry ∈ entries, requirePath entry.1 = .ok () ∧ isSha entry.2 = true := by
  induction entries with
  | nil => exact fun _ h => (List.not_mem_nil h).elim
  | cons entry rest ih =>
    obtain ⟨_, hpath, h⟩ := bind_eq_ok_iff.mp h
    split_ifs at h with hsha
    exact List.forall_mem_cons.mpr ⟨⟨hpath, Bool.not_eq_false _ ▸ hsha⟩, ih h⟩

theorem inventory_eq_ok {json : Json} {line : ReleaseLine} {v : Inventory}
    (hgit : git.Reports R) (h : inventory git json commit line = .ok v) :
    Recorded R json line commit v := by
  obtain ⟨path, hpath, h⟩ := bind_eq_ok_iff.mp h
  obtain ⟨tree, htree, h⟩ := bind_eq_ok_iff.mp h
  split_ifs at h with hregular
  obtain ⟨data, hdata, h⟩ := bind_eq_ok_iff.mp h
  split_ifs at h with hsize
  obtain ⟨value, hvalue, h⟩ := bind_eq_ok_iff.mp h
  split_ifs at h with hvalid
  obtain ⟨_, hblobs, h⟩ := bind_eq_ok_iff.mp h
  cases h
  simp only [not_or, Bool.not_eq_false, not_not, Nat.not_lt] at hregular hvalid
  obtain ⟨hfront, hsuffix, hline⟩ := hregular
  obtain ⟨hschema, hbase, hanchor, hpolicy, hnonempty, hbounded⟩ := hvalid
  obtain ⟨e, he, hrow⟩ := hgit.lsTree htree (List.isSuffixOf_iff_suffix.mp hsuffix) hline
  refine ⟨⟨path, e, hpath, he, ?_⟩, ⟨path, data, hpath, hgit.showFile hdata, hvalue⟩,
    hschema, hbase, hanchor, hpolicy, hnonempty, hbounded, requireBlobs_eq_ok hblobs⟩
  obtain ⟨rest, hrest⟩ := List.isPrefixOf_iff_prefix.mp hfront
  have hplain : ∀ c ∈ e.mode ++ e.kind ++ e.object, c ≠ ' ' := fun c hc => (e.plain c hc).1
  have heq : "100644".toList ++ ' ' :: ("blob".toList ++ ' ' :: rest) =
      e.mode ++ ' ' :: (e.kind ++ ' ' :: (e.object ++ '\t' :: path)) := by
    have : "100644 blob ".toList ++ rest = e.row path := hrest.trans hrow
    simpa [Entry.row] using this
  obtain ⟨hmode, heq⟩ := append_cons_inj (by decide) (fun h => hplain ' ' (by simp [h]) rfl) heq
  obtain ⟨hkind, -⟩ := append_cons_inj (by decide) (fun h => hplain ' ' (by simp [h]) rfl) heq
  exact ⟨hmode.symm, hkind.symm⟩

/-- The paths of the seed, each once. -/
theorem seedBlobs_eq_ok {paths : List Text} {blobs blobs' : Blobs}
    (h : seedBlobs git commit blobs paths = .ok blobs') :
    ∀ p, p ∈ blobs'.paths ↔ p ∈ blobs.paths ∨ p ∈ paths := by
  induction paths generalizing blobs with
  | nil =>
    cases h
    simp
  | cons path rest ih =>
    obtain ⟨_, -, h⟩ := bind_eq_ok_iff.mp h
    obtain ⟨sha, -, h⟩ := bind_eq_ok_iff.mp h
    cases hinsert : blobs.insert path sha with
    | none =>
      rw [hinsert] at h
      cases h
    | some blobs₁ =>
      rw [hinsert] at h
      intro p
      have hpaths : p ∈ blobs₁.paths ↔ p = path ∨ p ∈ blobs.paths := by
        simp only [Blobs.paths, List.mem_map, Blobs.mem_insert hinsert]
        aesop
      rw [ih h, hpaths, List.mem_cons]
      tauto

theorem seedInventory_eq_ok {line : ReleaseLine} {anchor main : Text} {v : Inventory}
    (hgit : git.Reports R) (h : seedInventory git line anchor main = .ok v) :
    ∃ seed, R.text main seedPath = some seed ∧ ∀ p, p ∈ v.blobs.paths ↔ p ∈ seedPaths seed := by
  obtain ⟨seed, hseed, h⟩ := bind_eq_ok_iff.mp h
  obtain ⟨blobs, hblobs, h⟩ := bind_eq_ok_iff.mp h
  split_ifs at h with hbad
  cases h
  refine ⟨seed, hgit.showFile hseed, fun p => ?_⟩
  rw [seedBlobs_eq_ok hblobs]
  exact or_iff_right List.not_mem_nil

end

end Release
end YamlSigil
