/-
Semantic versions and their order.

Numeric identifiers compare by value and stand in front of the others, a release
stands behind its prereleases, and of two prereleases that agree as far as they go
the shorter one is the smaller.  Build metadata comes last, which makes the order
total.
-/
import Mathlib.Data.Char
import Mathlib.Data.List.Lex
import Mathlib.Data.Prod.Lex
import Mathlib.Data.Sum.Order
import Mathlib.Order.MinMax
import Mathlib.Order.WithBot
import Mathlib.Algebra.Ring.Nat

namespace YamlSigil
namespace Format
namespace SemVer

/-! ## Decimal numbers -/

abbrev digits (n : Nat) : List Char := Nat.toDigits 10 n

abbrev valueOf (s : List Char) : Nat := Nat.ofDigitChars 10 s 0

theorem valueOf_digits (n : Nat) : valueOf (digits n) = n := Nat.ofDigitChars_ten_toDigits

theorem all_isDigit_digits (n : Nat) : (digits n).all Char.isDigit = true :=
  List.all_eq_true.mpr fun _ hc => Nat.isDigit_of_mem_toDigits (by decide) (by decide) hc

theorem digits_injective : Function.Injective digits := by
  intro m n h
  rw [← valueOf_digits m, h, valueOf_digits]

theorem digits_ne_nil (n : Nat) : digits n ≠ [] := Nat.toDigits_ne_nil

/-! ## Canonical numerals -/

theorem exists_digitChar {c : Char} (h : c.isDigit = true) : ∃ d < 10, Nat.digitChar d = c := by
  have hdigit : (decide (c.val ≥ 48) && decide (c.val ≤ 57)) = true := h
  rw [Bool.and_eq_true, decide_eq_true_eq, decide_eq_true_eq] at hdigit
  have hle : c.toNat ≤ 57 := hdigit.2
  have hge : 48 ≤ c.toNat := hdigit.1
  refine ⟨c.toNat - 48, by omega, Char.toNat_inj.mp ?_⟩
  rw [Nat.toNat_digitChar_of_lt_ten (by omega)]
  omega

/-- Behind a number that is not zero, any digits continue its numeral. -/
theorem digits_ofDigitChars {s : List Char} (hs : s.all Char.isDigit = true) {n : Nat}
    (hn : 0 < n) : digits n ++ s = digits (Nat.ofDigitChars 10 s n) := by
  induction s generalizing n with
  | nil => simp
  | cons c s ih =>
    rw [List.all_cons, Bool.and_eq_true] at hs
    obtain ⟨d, hd, rfl⟩ := exists_digitChar hs.1
    have hlast : digits d = [d.digitChar] := Nat.toDigits_of_lt_base hd
    have hnext : digits n ++ digits d = digits (10 * n + d) :=
      Nat.toDigits_append_toDigits (by omega) hn hd
    rw [hlast] at hnext
    rw [Nat.ofDigitChars_cons_digitChar_of_lt_ten hd, ← ih hs.2 (by omega), ← hnext,
      List.append_assoc, List.singleton_append]

/-- No zero in front of other digits. -/
def Canonical (s : List Char) : Prop :=
  s ≠ [] ∧ s.all Char.isDigit = true ∧ (s.head? = some '0' → s.length = 1)

theorem Canonical.digits {s : List Char} (h : Canonical s) : digits (valueOf s) = s := by
  obtain ⟨hne, hdigits, hzero⟩ := h
  obtain ⟨c, s, rfl⟩ := List.exists_cons_of_ne_nil hne
  rw [List.all_cons, Bool.and_eq_true] at hdigits
  obtain ⟨d, hd, rfl⟩ := exists_digitChar hdigits.1
  have hfirst : SemVer.digits d = [d.digitChar] := Nat.toDigits_of_lt_base hd
  show SemVer.digits (Nat.ofDigitChars 10 _ 0) = _
  rw [Nat.ofDigitChars_cons_digitChar_of_lt_ten hd, Nat.mul_zero, Nat.zero_add]
  rcases Nat.eq_zero_or_pos d with rfl | hpos
  · cases List.length_eq_zero_iff.mp (Nat.succ.inj (hzero rfl))
    rfl
  · rw [← digits_ofDigitChars hdigits.2 hpos, hfirst, List.singleton_append]

/-- Numeric identifiers by value, in front of all others.  The text breaks ties, which
there are between numbers with leading zeros. -/
abbrev IdentifierKey := (Nat ×ₗ Nat ×ₗ List Char) ⊕ₗ List Char

def identifierKey (s : List Char) : IdentifierKey :=
  if s.all Char.isDigit then Sum.inlₗ (toLex (valueOf s, toLex (s.length, s))) else Sum.inrₗ s

theorem identifierKey_injective : Function.Injective identifierKey := by
  intro s t h
  unfold identifierKey at h
  by_cases hs : s.all Char.isDigit = true
  · rw [if_pos hs] at h
    by_cases ht : t.all Char.isDigit = true
    · rw [if_pos ht] at h
      have hkey : (valueOf s, toLex (s.length, s)) = (valueOf t, toLex (t.length, t)) :=
        Sum.inl.inj h
      have hpair : (s.length, s) = (t.length, t) := congrArg Prod.snd hkey
      exact congrArg Prod.snd hpair
    · rw [if_neg ht] at h
      cases h
  · rw [if_neg hs] at h
    by_cases ht : t.all Char.isDigit = true
    · rw [if_pos ht] at h
      cases h
    · rw [if_neg ht] at h
      exact Sum.inr.inj h

theorem identifierKey_digits (n : Nat) :
    identifierKey (digits n) = Sum.inlₗ (toLex (n, toLex ((digits n).length, digits n))) := by
  rw [identifierKey, if_pos (all_isDigit_digits n), valueOf_digits]

/-- The keys of the identifiers between the dots. -/
def identifierKeys (s : List Char) : List IdentifierKey := (s.splitOn '.').map identifierKey

theorem identifierKeys_injective : Function.Injective identifierKeys := by
  intro s t h
  have hsplit : s.splitOn '.' = t.splitOn '.' :=
    List.map_injective_iff.mpr identifierKey_injective h
  calc s = ['.'].intercalate (s.splitOn '.') := (List.intercalate_splitOn '.').symm
    _ = ['.'].intercalate (t.splitOn '.') := by rw [hsplit]
    _ = t := List.intercalate_splitOn '.'

/-! ## Versions -/

structure Version where
  major : Nat
  minor : Nat
  patch : Nat
  pre : List Char
  build : List Char
deriving Repr, DecidableEq

/-- No prerelease is above every prerelease. -/
def prereleaseKey (pre : List Char) : WithTop (List IdentifierKey) :=
  if pre = [] then ⊤ else (identifierKeys pre : List IdentifierKey)

theorem prereleaseKey_injective : Function.Injective prereleaseKey := by
  intro s t h
  unfold prereleaseKey at h
  by_cases hs : s = []
  · rw [if_pos hs] at h
    by_cases ht : t = []
    · rw [hs, ht]
    · rw [if_neg ht] at h
      cases h
  · rw [if_neg hs] at h
    by_cases ht : t = []
    · rw [if_pos ht] at h
      cases h
    · rw [if_neg ht] at h
      exact identifierKeys_injective (WithTop.coe_injective h)

namespace Version

/-- The text of a version. -/
def toText (v : Version) : List Char :=
  digits v.major ++ '.' :: digits v.minor ++ '.' :: digits v.patch ++
    (if v.pre = [] then [] else '-' :: v.pre) ++ (if v.build = [] then [] else '+' :: v.build)

abbrev Key := Nat ×ₗ Nat ×ₗ Nat ×ₗ WithTop (List IdentifierKey) ×ₗ List IdentifierKey

def key (v : Version) : Key :=
  toLex (v.major, toLex (v.minor, toLex (v.patch,
    toLex (prereleaseKey v.pre, identifierKeys v.build))))

theorem key_injective : Function.Injective key := by
  intro v w h
  obtain ⟨major, minor, patch, pre, build⟩ := v
  obtain ⟨major', minor', patch', pre', build'⟩ := w
  have h1 : major = major' := congrArg Prod.fst h
  have h2 := congrArg Prod.snd h
  have hminor : minor = minor' := congrArg Prod.fst h2
  have h3 := congrArg Prod.snd h2
  have hpatch : patch = patch' := congrArg Prod.fst h3
  have h4 := congrArg Prod.snd h3
  have hpre : pre = pre' := prereleaseKey_injective (congrArg Prod.fst h4)
  have hbuild : build = build' := identifierKeys_injective (congrArg Prod.snd h4)
  subst h1 hminor hpatch hpre hbuild
  rfl

instance : LinearOrder Version := LinearOrder.lift' key key_injective

theorem lt_iff {v w : Version} : v < w ↔ v.major < w.major ∨ v.major = w.major ∧
    (v.minor < w.minor ∨ v.minor = w.minor ∧ (v.patch < w.patch ∨ v.patch = w.patch ∧
      (prereleaseKey v.pre < prereleaseKey w.pre ∨ prereleaseKey v.pre = prereleaseKey w.pre ∧
        identifierKeys v.build < identifierKeys w.build))) := by
  show key v < key w ↔ _
  rw [key, key, Prod.Lex.toLex_lt_toLex, Prod.Lex.toLex_lt_toLex, Prod.Lex.toLex_lt_toLex,
    Prod.Lex.toLex_lt_toLex]

section
variable {v w : Version} (hmajor : v.major = w.major) (hminor : v.minor = w.minor)

include hmajor hminor

theorem lt_of_patch_lt (h : v.patch < w.patch) : v < w :=
  lt_iff.mpr (.inr ⟨hmajor, .inr ⟨hminor, .inl h⟩⟩)

theorem patch_le_of_le (h : v ≤ w) : v.patch ≤ w.patch := by
  by_contra hlt
  exact absurd (lt_of_patch_lt hmajor.symm hminor.symm (Nat.lt_of_not_le hlt)) (not_lt.mpr h)

theorem lt_of_pre_lt (hpatch : v.patch = w.patch) (h : prereleaseKey v.pre < prereleaseKey w.pre) :
    v < w :=
  lt_iff.mpr (.inr ⟨hmajor, .inr ⟨hminor, .inr ⟨hpatch, .inl h⟩⟩⟩)

end

end Version

/-! ## Release candidates -/

theorem prereleaseKey_lt_release {pre : List Char} (h : pre ≠ []) :
    prereleaseKey pre < prereleaseKey [] := by
  rw [prereleaseKey, if_neg h, prereleaseKey, if_pos rfl]
  exact WithTop.coe_lt_top _

/-- `rc.n` -/
def rc (n : Nat) : List Char := ['r', 'c', '.'] ++ digits n

theorem rc_ne_nil (n : Nat) : rc n ≠ [] := List.cons_ne_nil _ _

theorem rc_injective : Function.Injective rc := fun _ _ h =>
  digits_injective (List.append_cancel_left h)

theorem dot_not_mem_digits (n : Nat) : '.' ∉ digits n := by
  intro h
  have hdigit := List.all_eq_true.mp (all_isDigit_digits n) '.' h
  exact absurd hdigit (by decide)

theorem identifierKeys_rc (n : Nat) :
    identifierKeys (rc n) = [identifierKey ['r', 'c'], identifierKey (digits n)] := by
  have hsplit : (rc n).splitOn '.' = [['r', 'c'], digits n] := by
    show (['r', 'c'] ++ '.' :: digits n).splitOn '.' = _
    rw [List.splitOn_append_cons_self_of_not_mem (by decide),
      List.splitOn_eq_singleton (dot_not_mem_digits n)]
  rw [identifierKeys, hsplit]
  rfl

theorem prereleaseKey_rc_lt {m n : Nat} (h : m < n) :
    prereleaseKey (rc m) < prereleaseKey (rc n) := by
  have hkey : identifierKey (digits m) < identifierKey (digits n) := by
    rw [identifierKey_digits, identifierKey_digits]
    exact Sum.Lex.inl_lt_inl_iff.mpr (Prod.Lex.toLex_lt_toLex.mpr (.inl h))
  rw [prereleaseKey, if_neg (rc_ne_nil m), prereleaseKey, if_neg (rc_ne_nil n),
    identifierKeys_rc, identifierKeys_rc, WithTop.coe_lt_coe]
  exact List.cons_lt_cons_iff.mpr (.inr ⟨rfl, List.cons_lt_cons_iff.mpr (.inl hkey)⟩)

end SemVer
end Format
end YamlSigil
