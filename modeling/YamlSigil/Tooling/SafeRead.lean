/-
What a safe read returns.

The tree may change at every moment.  It is only assumed which files may stand at which paths
below the root, at whatever moment: then the text that is returned was read from a regular
file that may stand at the very path that was asked for, whatever links, devices and moved
directories turn up on the way.  No call reads past the limit and one octet.  That the text is
all that the file holds needs more: that no file is written meanwhile.
-/
import YamlSigil.Tooling.SafeFile

namespace YamlSigil
namespace Tooling

open YamlSigil.Core Control Format.SemVer

/-! ## Names -/

/-- A name that an `openat` looks up in the directory itself. -/
structure PlainName (name : Bytes) : Prop where
  ne_nil : name ≠ []
  ne_dot : name ≠ [dot]
  ne_dots : name ≠ [dot, dot]
  no_slash : slash ∉ name

/-- A name that a safe path may have. -/
structure SafeName (name : Bytes) : Prop extends PlainName name where
  normal : normalName (.normal name) = .ok name

theorem components_join {names : List Bytes} (hne : names ≠ [])
    (h : ∀ name ∈ names, PlainName name) :
    components ([slash].intercalate names) = names.map .normal := by
  have hsplit : ([slash].intercalate names).splitOn slash = names :=
    List.splitOn_intercalate slash (fun name hname => (h name hname).no_slash) hne
  have hhead : names.head? ≠ some [dot] := by
    intro hhead
    exact (h [dot] (List.mem_of_mem_head? hhead)).ne_dot rfl
  unfold components
  rw [hsplit, if_neg hhead, List.nil_append, ← List.filterMap_eq_map]
  refine List.filterMap_congr fun name hname => ?_
  have hplain := h name hname
  simp [component, hplain.ne_nil, hplain.ne_dot, hplain.ne_dots]

/-- The names of a path are read back from it. -/
theorem relativeComponents_join {names : List Bytes} (hne : names ≠ [])
    (h : ∀ name ∈ names, SafeName name) :
    relativeComponents ([slash].intercalate names) = .ok names := by
  have hplain : ∀ name ∈ names, PlainName name := fun name hname => (h name hname).toPlainName
  have hmap : ∀ l : List Bytes, (∀ name ∈ l, SafeName name) →
      (l.map Component.normal).mapM normalName = .ok l := by
    intro l hl
    induction l with
    | nil => rfl
    | cons name rest ih =>
      rw [List.map_cons, List.mapM_cons, (hl name List.mem_cons_self).normal,
        ih fun n hn => hl n (List.mem_cons_of_mem _ hn)]
      rfl
  have hstart : ¬([slash].intercalate names = [] ∨
      ([slash].intercalate names).head? = some slash) := by
    cases names with
    | nil => exact absurd rfl hne
    | cons name rest =>
      have hname := hplain name List.mem_cons_self
      obtain ⟨c, cs, rfl⟩ := List.exists_cons_of_ne_nil hname.ne_nil
      have hc : c ≠ slash := fun heq => hname.no_slash (heq ▸ List.mem_cons_self)
      cases rest <;> simp [List.intercalate, List.intersperse, hc]
  unfold relativeComponents
  rw [if_neg hstart, components_join hne hplain, hmap names h]
  change (if names = [] then _ else _) = _
  rw [if_neg hne]

/-! ## Trees that change -/

/-- A read of a file: where the last octet that it asked for ends, and what it got. -/
structure Touch where
  file : Inode
  upTo : Nat
  got : Bytes

/-- What may be seen of a file system at one moment: the entries of directories and what
files hold.  The reads of files are kept, the last one first. -/
structure Files where
  entry : Inode → Bytes → Option Inode
  content : Inode → Bytes
  touched : List Touch

/-- What was read, in the order in which it came. -/
def Files.octets (s : Files) : Bytes := s.touched.reverse.flatMap Touch.got

theorem Files.octets_of_cons {s t : Files} {touch : Touch} (h : t.touched = touch :: s.touched) :
    t.octets = s.octets ++ touch.got := by
  unfold octets
  rw [h, List.reverse_cons, List.flatMap_append, List.flatMap_singleton]

/-- What a read got. -/
def gotten {wanted : Nat} : Except IoError { chunk : Bytes // chunk.length ≤ wanted } → Bytes
  | .ok chunk => chunk.val
  | .error _ => []

/-- What is fixed while a tree changes.  A file keeps its kind; `standsAt` says which files
may ever stand at a path below the root; and where `stable` is given, no file is written. -/
structure Tree where
  kind : Inode → FileKind
  standsAt : List Bytes → Inode → Prop
  stable : Option (Inode → Bytes)

/-- A moment of a tree. -/
structure Tree.Allows (tree : Tree) (s : Files) : Prop where
  entry : ∀ path directory name child, tree.standsAt path directory →
    s.entry directory name = some child → tree.standsAt (path ++ [name]) child
  content : ∀ content ∈ tree.stable, s.content = content

/-- What comes back at one moment.  Nothing is said of a name that is not looked up in the
directory itself: what it opens may be anywhere. -/
def Tree.Answers (tree : Tree) (s t : Files) : (q : FileCall) → FileAnswer q → Prop
  | .openRoot _, a => t.touched = s.touched ∧ ∀ directory, a = Except.ok directory →
      tree.kind directory = .directory ∧ tree.standsAt [] directory
  | .openAt parent name directory, a => t.touched = s.touched ∧ ∀ child, a = Except.ok child →
      PlainName name → t.entry parent name = some child ∧ tree.kind child ≠ .symlink ∧
        (directory = true → tree.kind child = .directory)
  | .fstat handle, a => t.touched = s.touched ∧ ∀ kind, a = Except.ok kind →
      kind = tree.kind handle
  | .read handle offset wanted, a =>
      t.touched = ⟨handle, offset + wanted, gotten a⟩ :: s.touched ∧ ∀ chunk, a = Except.ok chunk → chunk.val <+: (t.content handle).drop offset ∧
        (chunk.val = [] → 0 < wanted → (t.content handle).length ≤ offset)

/-- Between two calls the tree becomes any that it allows. -/
def Tree.world (tree : Tree) : World FileCall FileAnswer Files :=
  fun q s a t => tree.Allows t ∧ tree.Answers s t q a

/-- Only regular files at the path that was asked for were read from, and no read went past
the limit and one octet. -/
def Tree.Guarded (tree : Tree) (path : Bytes) (limit : Nat) (s : Files) : Prop :=
  ∀ touch ∈ s.touched, tree.kind touch.file = .regular ∧ touch.upTo ≤ limit + 1 ∧
    ∃ names, relativeComponents path = .ok names ∧ tree.standsAt names touch.file

variable {tree : Tree} {path : Bytes} {limit : Nat} {s t : Files}

abbrev Reads (tree : Tree) (path : Bytes) (limit : Nat) {α : Type} (post : α → Files → Prop)
    (p : Filing α) (s : Files) : Prop :=
  Looping.Does tree.world (fun _ t => tree.Guarded path limit t) (fun _ => True) post p s

/-- What has been read is of this file: no more than the sentinel, and what is there if
nothing changes. -/
structure ReadUpTo (tree : Tree) (file : Inode) (sentinel : Nat) (bytes : Bytes) (s : Files) :
    Prop where
  octets : bytes = s.octets
  only : ∀ touch ∈ s.touched, touch.file = file
  le : bytes.length ≤ sentinel
  stable : ∀ content ∈ tree.stable, bytes <+: content file

/-- One pass asks the file for what is missing to the sentinel. -/
theorem ReadUpTo.read {file : Inode} {sentinel : Nat} {bytes : Bytes}
    {a : FileAnswer (.read file bytes.length (sentinel - bytes.length))}
    (h : ReadUpTo tree file sentinel bytes s) (hfull : ¬sentinel ≤ bytes.length)
    (hworld : tree.world (.read file bytes.length (sentinel - bytes.length)) s a t) :
    ReadUpTo tree file sentinel (bytes ++ gotten a) t := by
  obtain ⟨hallows, htouched, hread⟩ := hworld
  constructor
  · exact (congrArg (· ++ gotten a) h.octets).trans (Files.octets_of_cons htouched).symm
  · intro touch hmem
    rw [htouched] at hmem
    rcases List.mem_cons.mp hmem with heq | hmem
    · rw [heq]
    · exact h.only touch hmem
  · cases a with
    | error e =>
      show (bytes ++ []).length ≤ sentinel
      rw [List.append_nil]
      exact h.le
    | ok chunk =>
      have hchunk := chunk.property
      show (bytes ++ chunk.val).length ≤ sentinel
      rw [List.length_append]
      omega
  · intro content hcontent
    cases a with
    | error e =>
      show bytes ++ [] <+: content file
      rw [List.append_nil]
      exact h.stable content hcontent
    | ok chunk =>
      have hchunkAt := (hread chunk rfl).1
      obtain ⟨rest, hrest⟩ := h.stable content hcontent
      rw [hallows.content content hcontent, ← hrest, List.drop_left] at hchunkAt
      rw [← hrest]
      exact (List.prefix_append_right_inj _).mpr hchunkAt

end Tooling
end YamlSigil
