/-
Forward scans that remember the last match and jump over each match they find.

A scanner tries one position after another.  At a match it records the position
and resumes behind the match, so positions inside a match are never tried.  The
scan therefore returns the greatest matching position only when no match starts
inside another one, which is the hypothesis `Tokens.Disjoint`.

The second half is about the sliding windows of a list: a test of every window
of the pattern's length is a test for a contiguous occurrence.
-/
import Mathlib.Data.List.Basic
import Mathlib.Algebra.Ring.Nat

namespace YamlSigil
namespace Format
namespace Scan

/-! ## Skip-ahead scans -/

/-- Where matches start and how long they are.  A match is never empty, so a
scan that jumps over it makes progress. -/
structure Tokens where
  at? : Nat → Option Nat
  pos : ∀ {i len}, at? i = some len → 0 < len

namespace Tokens

variable (T : Tokens)

/-- No match starts strictly inside another match. -/
def Disjoint : Prop :=
  ∀ {i len j}, T.at? i = some len → i < j → j < i + len → T.at? j = none

/-- Scan positions `i, i + 1, …` below `n`, jumping over every match, with
`last` the latest match so far. -/
def lastFrom (n i : Nat) (last : Option Nat) : Option Nat :=
  if i < n then
    match h : T.at? i with
    | some len => lastFrom n (i + len) (some i)
    | none => lastFrom n (i + 1) last
  else
    last
termination_by n - i
decreasing_by
  · have := T.pos h
    omega
  · omega

def lastHit (n : Nat) : Option Nat := T.lastFrom n 0 none

variable {T}

/-- What one call of the scan returns: the greatest match at or behind the
cursor, or the match it was started with. -/
inductive Result (T : Tokens) (n i : Nat) (last : Option Nat) : Option Nat → Prop
  | found {m : Nat} (ge : i ≤ m) (lt : m < n) (hit : T.at? m ≠ none)
      (max : ∀ j, m < j → j < n → T.at? j = none) : Result T n i last (some m)
  | kept (none_behind : ∀ j, i ≤ j → j < n → T.at? j = none) : Result T n i last last

theorem lastFrom_result (hd : T.Disjoint) {n i : Nat} {last : Option Nat} :
    Result T n i last (T.lastFrom n i last) := by
  fun_induction T.lastFrom n i last with
  | case1 i last hi len h ih =>
    have hlen := T.pos h
    generalize T.lastFrom n (i + len) (some i) = r at ih
    cases ih with
    | found ge lt hit max => exact .found (by omega) lt hit max
    | kept none_behind =>
      refine .found (Nat.le_refl i) hi (by simp [h]) fun j hij hjn => ?_
      by_cases hj : j < i + len
      · exact hd h hij hj
      · exact none_behind j (by omega) hjn
  | case2 i last hi h ih =>
    generalize T.lastFrom n (i + 1) last = r at ih
    cases ih with
    | found ge lt hit max => exact .found (by omega) lt hit max
    | kept none_behind =>
      refine .kept fun j hij hjn => ?_
      by_cases hj : j = i
      · rw [hj, h]
      · exact none_behind j (by omega) hjn
  | case3 i last hi => exact .kept fun j hij hjn => absurd hjn (by omega)

/-- The scan finds the greatest match although it jumps. -/
theorem lastHit_eq_some_iff (hd : T.Disjoint) {n m : Nat} :
    T.lastHit n = some m ↔
      m < n ∧ T.at? m ≠ none ∧ ∀ j, m < j → j < n → T.at? j = none := by
  have hr : Result T n 0 none (T.lastFrom n 0 none) := lastFrom_result hd
  unfold lastHit
  generalize T.lastFrom n 0 none = r at hr ⊢
  cases hr with
  | @found m' _ lt hit max =>
    constructor
    · intro h
      cases h
      exact ⟨lt, hit, max⟩
    · intro h
      rcases h with ⟨hm, hhit, hmax⟩
      rcases Nat.lt_trichotomy m' m with h | h | h
      · exact absurd (max m h hm) hhit
      · rw [h]
      · exact absurd (hmax m' h lt) hit
  | kept none_behind =>
    constructor
    · intro h
      cases h
    · intro h
      rcases h with ⟨hm, hhit, _⟩
      exact absurd (none_behind m (Nat.zero_le m) hm) hhit

theorem lastHit_eq_none_iff (hd : T.Disjoint) {n : Nat} :
    T.lastHit n = none ↔ ∀ j, j < n → T.at? j = none := by
  have hr : Result T n 0 none (T.lastFrom n 0 none) := lastFrom_result hd
  unfold lastHit
  generalize T.lastFrom n 0 none = r at hr ⊢
  cases hr with
  | @found m _ lt hit _ =>
    constructor
    · intro h
      cases h
    · intro h
      exact absurd (h m lt) hit
  | kept none_behind => exact ⟨fun _ j hj => none_behind j (Nat.zero_le j) hj, fun _ => rfl⟩

end Tokens

/-! ## Sliding windows -/

variable {α : Type*}

/-- The contiguous sublists of length `k`, from left to right. -/
def windows (k : Nat) (l : List α) : List (List α) :=
  (List.range (l.length + 1 - k)).map fun i => (l.drop i).take k

theorem mem_windows {k : Nat} {l w : List α} :
    w ∈ windows k l ↔ ∃ i, i + k ≤ l.length ∧ w = (l.drop i).take k := by
  simp only [windows, List.mem_map, List.mem_range]
  constructor
  · intro h
    rcases h with ⟨i, hi, hw⟩
    exact ⟨i, by omega, hw.symm⟩
  · intro h
    rcases h with ⟨i, hi, hw⟩
    exact ⟨i, by omega, hw.symm⟩

theorem any_windows_iff [BEq α] [LawfulBEq α] {l w : List α} :
    (windows w.length l).any (· == w) = true ↔ w <:+: l := by
  simp only [List.any_eq_true, beq_iff_eq, exists_eq_right, mem_windows]
  constructor
  · intro h
    rcases h with ⟨i, _, hw⟩
    refine ⟨l.take i, (l.drop i).drop w.length, ?_⟩
    calc l.take i ++ w ++ (l.drop i).drop w.length
        = l.take i ++ ((l.drop i).take w.length ++ (l.drop i).drop w.length) := by
          rw [← hw, List.append_assoc]
      _ = l := by rw [List.take_append_drop, List.take_append_drop]
  · intro h
    rcases h with ⟨p, s, h⟩
    subst h
    refine ⟨p.length, by simp only [List.length_append]; omega, ?_⟩
    rw [List.append_assoc, List.drop_left, List.take_left]

end Scan
end Format
end YamlSigil
