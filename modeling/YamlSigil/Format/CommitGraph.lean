/-
Histories of commits.

A commit keeps its parents for ever, so a history only grows, and what is true of the
ancestors of a commit stays true.  A name that moves forward only has not moved when it is
found twice at one commit.
-/
import Mathlib.Logic.Relation

namespace YamlSigil
namespace Format
namespace CommitGraph

variable {Id : Type}

/-- The commits and their parents, which are commits.  No commit is behind itself. -/
structure History (Id : Type) where
  commit : Id → Prop
  parent : Id → Id → Prop
  closed : ∀ {c p}, commit c → parent c p → commit p
  acyclic : ∀ c, ¬Relation.TransGen parent c c

namespace History

variable {h h' : History Id} {a b c m x : Id}

/-- `older` is `newer` or was made before it, on the way to it. -/
def Ancestor (h : History Id) (older newer : Id) : Prop :=
  Relation.ReflTransGen h.parent newer older

theorem Ancestor.refl (c : Id) : h.Ancestor c c := Relation.ReflTransGen.refl

theorem Ancestor.trans (hab : h.Ancestor a b) (hbc : h.Ancestor b c) : h.Ancestor a c :=
  Relation.ReflTransGen.trans hbc hab

theorem Ancestor.antisymm (hab : h.Ancestor a b) (hba : h.Ancestor b a) : a = b := by
  rcases Relation.reflTransGen_iff_eq_or_transGen.mp hab with rfl | hab
  · rfl
  · exact (h.acyclic b (hab.trans_left hba)).elim

theorem Ancestor.commit (hab : h.Ancestor a b) (hb : h.commit b) : h.commit a := by
  induction hab with
  | refl => exact hb
  | tail _ hparent ih => exact h.closed ih hparent

/-! ## Forks -/

/-- A common ancestor that has no common ancestor on top of it. -/
structure Fork (h : History Id) (a b m : Id) : Prop where
  left : h.Ancestor m a
  right : h.Ancestor m b
  best : ∀ x, h.Ancestor x a → h.Ancestor x b → h.Ancestor m x → x = m

/-- Where the one commit is the fork, it is behind the other. -/
theorem Fork.ancestor (hfork : h.Fork a b a) : h.Ancestor a b := hfork.right

/-! ## Growth -/

/-- Commits are added, and none is changed. -/
structure Grows (h h' : History Id) : Prop where
  commit : ∀ {c}, h.commit c → h'.commit c
  parent : ∀ {c p}, h.commit c → (h.parent c p ↔ h'.parent c p)

theorem Grows.refl (h : History Id) : h.Grows h := ⟨fun hc => hc, fun _ => Iff.rfl⟩

theorem Grows.trans {h'' : History Id} (hg : h.Grows h') (hg' : h'.Grows h'') : h.Grows h'' where
  commit hc := hg'.commit (hg.commit hc)
  parent hc := (hg.parent hc).trans (hg'.parent (hg.commit hc))

theorem Grows.ancestor_iff (hg : h.Grows h') (hb : h.commit b) :
    h.Ancestor a b ↔ h'.Ancestor a b := by
  constructor
  · intro hab
    induction hab with
    | refl => exact .refl _
    | tail hbc hparent ih =>
      exact ih.tail ((hg.parent (Ancestor.commit hbc hb)).mp hparent)
  · intro hab
    induction hab with
    | refl => exact .refl _
    | tail hbc hparent ih => exact ih.tail ((hg.parent (Ancestor.commit ih hb)).mpr hparent)

theorem Grows.fork (hg : h.Grows h') (ha : h.commit a) (hb : h.commit b)
    (hfork : h.Fork a b m) : h'.Fork a b m where
  left := (hg.ancestor_iff ha).mp hfork.left
  right := (hg.ancestor_iff hb).mp hfork.right
  best := by
    intro x hxa hxb hmx
    have hxa := (hg.ancestor_iff ha).mpr hxa
    exact hfork.best x hxa ((hg.ancestor_iff hb).mpr hxb)
      ((hg.ancestor_iff (hxa.commit ha)).mpr hmx)

end History

/-! ## Names -/

/-- A history with names for some of its commits. -/
structure Named (Name Id : Type) where
  history : History Id
  refs : Name → Option Id
  known : ∀ {name tip}, refs name = some tip → history.commit tip

namespace Named

variable {Name : Type} {kept : Name → Prop} {r r' r'' : Named Name Id} {name : Name} {tip : Id}

open History

/-- The history grows, and the names that are kept move forward in it.  Other names come, go
and move as they will. -/
structure Moves (kept : Name → Prop) (r r' : Named Name Id) : Prop where
  grows : r.history.Grows r'.history
  forward : ∀ {name tip}, kept name → r.refs name = some tip →
    ∃ tip', r'.refs name = some tip' ∧ r'.history.Ancestor tip tip'

theorem Moves.refl (r : Named Name Id) : Moves kept r r :=
  ⟨.refl _, fun _ htip => ⟨_, htip, .refl _⟩⟩

theorem Moves.trans (h : Moves kept r r') (h' : Moves kept r' r'') : Moves kept r r'' where
  grows := h.grows.trans h'.grows
  forward := by
    intro name tip hkept htip
    obtain ⟨tip', htip', hanc⟩ := h.forward hkept htip
    obtain ⟨tip'', htip'', hanc'⟩ := h'.forward hkept htip'
    exact ⟨tip'', htip'', ((h'.grows.ancestor_iff (r'.known htip')).mp hanc).trans hanc'⟩

/-- A name that is kept has not moved between two times at which it is found at one commit. -/
theorem Moves.still (h : Moves kept r r') (h' : Moves kept r' r'') (hkept : kept name)
    (htip : r.refs name = some tip) (htip' : r''.refs name = some tip) :
    r'.refs name = some tip := by
  obtain ⟨mid, hmid, hanc⟩ := h.forward hkept htip
  obtain ⟨last, hlast, hanc'⟩ := h'.forward hkept hmid
  rw [htip'] at hlast
  cases hlast
  have hanc' := (h'.grows.ancestor_iff (h.grows.commit (r.known htip))).mpr hanc'
  rw [hmid, hanc.antisymm hanc']

end Named

end CommitGraph
end Format
end YamlSigil
