/-
Regular expressions over characters, and schemas of objects of strings.

An expression matches a text from its first to its last character.  `isMatch`
decides that by derivatives: what is left to match once a character is read.
-/
import Mathlib.Data.List.Basic
import Mathlib.Algebra.Ring.Nat

namespace YamlSigil
namespace Format

inductive Regex where
  | nothing
  | empty
  | cls (accepts : Char → Bool)
  | seq (r r' : Regex)
  | alt (r r' : Regex)
  | star (r : Regex)

namespace Regex

/-- `r{n}` -/
def times (r : Regex) : Nat → Regex
  | 0 => empty
  | n + 1 => seq r (r.times n)

inductive Matches : Regex → List Char → Prop
  | empty : Matches empty []
  | cls {accepts : Char → Bool} {c : Char} : accepts c = true → Matches (cls accepts) [c]
  | seq {r r' : Regex} {s t : List Char} :
      Matches r s → Matches r' t → Matches (seq r r') (s ++ t)
  | altLeft {r r' : Regex} {t : List Char} : Matches r t → Matches (alt r r') t
  | altRight {r r' : Regex} {t : List Char} : Matches r' t → Matches (alt r r') t
  | starNil {r : Regex} : Matches (star r) []
  | starCons {r : Regex} {s t : List Char} :
      Matches r s → Matches (star r) t → Matches (star r) (s ++ t)

def nullable : Regex → Bool
  | nothing => false
  | empty => true
  | cls _ => false
  | seq r r' => r.nullable && r'.nullable
  | alt r r' => r.nullable || r'.nullable
  | star _ => true

/-- What is left to match behind the character `c`. -/
def deriv (c : Char) : Regex → Regex
  | nothing => nothing
  | empty => nothing
  | cls accepts => if accepts c then empty else nothing
  | seq r r' =>
    if r.nullable then alt (seq (r.deriv c) r') (r'.deriv c) else seq (r.deriv c) r'
  | alt r r' => alt (r.deriv c) (r'.deriv c)
  | star r => seq (r.deriv c) (star r)

def isMatch : Regex → List Char → Bool
  | r, [] => r.nullable
  | r, c :: t => (r.deriv c).isMatch t

theorem nullable_iff {r : Regex} : r.nullable = true ↔ Matches r [] := by
  constructor
  · intro h
    induction r with
    | nothing => cases h
    | empty => exact .empty
    | cls accepts => cases h
    | seq r r' ih ih' =>
      rw [nullable, Bool.and_eq_true] at h
      exact (ih h.1).seq (ih' h.2)
    | alt r r' ih ih' =>
      rw [nullable, Bool.or_eq_true] at h
      rcases h with h | h
      · exact (ih h).altLeft
      · exact (ih' h).altRight
    | star r _ => exact .starNil
  · intro h
    generalize ht : ([] : List Char) = t at h
    induction h with
    | empty => rfl
    | cls _ => cases ht
    | seq _ _ ih ih' =>
      obtain ⟨hs, ht⟩ := List.append_eq_nil_iff.mp ht.symm
      rw [nullable, ih hs.symm, ih' ht.symm]
      rfl
    | altLeft _ ih => rw [nullable, ih ht, Bool.true_or]
    | altRight _ ih => rw [nullable, ih ht, Bool.or_true]
    | starNil => rfl
    | starCons _ _ _ _ => rfl

theorem matches_deriv_iff {r : Regex} {c : Char} {t : List Char} :
    Matches (r.deriv c) t ↔ Matches r (c :: t) := by
  constructor
  · intro h
    induction r generalizing t with
    | nothing => cases h
    | empty => cases h
    | cls accepts =>
      rw [deriv] at h
      by_cases hc : accepts c = true
      · rw [if_pos hc] at h
        cases h
        exact .cls hc
      · rw [if_neg hc] at h
        cases h
    | seq r r' ih ih' =>
      have hseq : ∀ {t}, Matches (seq (r.deriv c) r') t → Matches (seq r r') (c :: t) := by
        intro t h
        cases h with
        | seq hs ht => exact (ih hs).seq ht
      rw [deriv] at h
      by_cases hnull : r.nullable = true
      · rw [if_pos hnull] at h
        cases h with
        | altLeft h => exact hseq h
        | altRight h => exact (nullable_iff.mp hnull).seq (ih' h)
      · rw [if_neg hnull] at h
        exact hseq h
    | alt r r' ih ih' =>
      cases h with
      | altLeft h => exact (ih h).altLeft
      | altRight h => exact (ih' h).altRight
    | star r ih =>
      cases h with
      | seq hs ht => exact (ih hs).starCons ht
  · intro h
    generalize hu : c :: t = u at h
    induction h generalizing t with
    | empty => cases hu
    | cls hc =>
      cases hu
      rw [deriv, if_pos hc]
      exact .empty
    | @seq r r' s s' hs hs' ih ih' =>
      rw [deriv]
      cases s with
      | nil =>
        rw [if_pos (nullable_iff.mpr hs)]
        exact (ih' hu).altRight
      | cons d s =>
        cases hu
        have hseq := (ih rfl).seq hs'
        by_cases hnull : r.nullable = true
        · rw [if_pos hnull]
          exact hseq.altLeft
        · rw [if_neg hnull]
          exact hseq
    | altLeft _ ih => exact (ih hu).altLeft
    | altRight _ ih => exact (ih hu).altRight
    | starNil => cases hu
    | @starCons r s s' hs hs' ih ih' =>
      cases s with
      | nil => exact ih' hu
      | cons d s =>
        cases hu
        exact (ih rfl).seq hs'

theorem isMatch_iff {r : Regex} {t : List Char} : r.isMatch t = true ↔ Matches r t := by
  induction t generalizing r with
  | nil => exact nullable_iff
  | cons c t ih => exact ih.trans matches_deriv_iff

/-! ## Classes -/

section
variable {accepts : Char → Bool} {t : List Char}

theorem matches_times_cls (h : ∀ c ∈ t, accepts c = true) :
    Matches ((cls accepts).times t.length) t := by
  induction t with
  | nil => exact .empty
  | cons c t ih =>
    exact .seq (s := [c]) (.cls (h c (List.mem_cons_self ..)))
      (ih fun d hd => h d (List.mem_cons_of_mem c hd))

theorem matches_times_cls_of_length {n : Nat} (h : ∀ c ∈ t, accepts c = true)
    (hlen : t.length = n) : Matches ((cls accepts).times n) t := by
  subst hlen
  exact matches_times_cls h

/-- Any number of blocks of `k` characters. -/
theorem matches_star_times_cls {k n : Nat} (h : ∀ c ∈ t, accepts c = true)
    (hlen : t.length = k * n) : Matches (star ((cls accepts).times k)) t := by
  induction n generalizing t with
  | zero =>
    have hnil : t = [] := List.eq_nil_of_length_eq_zero hlen
    rw [hnil]
    exact .starNil
  | succ n ih =>
    have hsucc : t.length = k * n + k := hlen
    rw [← List.take_append_drop k t]
    refine .starCons (matches_times_cls_of_length (fun c hc => h c (List.mem_of_mem_take hc)) ?_)
      (ih (fun c hc => h c (List.mem_of_mem_drop hc)) ?_)
    · rw [List.length_take]
      omega
    · rw [List.length_drop]
      omega

theorem matches_star_cls (h : ∀ c ∈ t, accepts c = true) : Matches (star (cls accepts)) t := by
  induction t with
  | nil => exact .starNil
  | cons c t ih =>
    exact .starCons (s := [c]) (.cls (h c (List.mem_cons_self ..)))
      (ih fun d hd => h d (List.mem_cons_of_mem c hd))

end

end Regex

/-! ## Objects of strings -/

/-- The constraints on a string. -/
structure StringSchema where
  const : Option (List Char)
  enum : Option (List (List Char))
  minLength : Option Nat
  maxLength : Option Nat
  pattern : Option Regex

/-- Lengths are counted in code points. -/
def StringSchema.validates (s : StringSchema) (t : List Char) : Bool :=
  s.const.all (t == ·) && s.enum.all (·.contains t) && s.minLength.all (decide <| · ≤ t.length) &&
    s.maxLength.all (decide <| t.length ≤ ·) && s.pattern.all (·.isMatch t)

theorem StringSchema.validates_iff {s : StringSchema} {t : List Char} :
    s.validates t = true ↔ (∀ c ∈ s.const, t = c) ∧ (∀ ts ∈ s.enum, t ∈ ts) ∧
      (∀ n ∈ s.minLength, n ≤ t.length) ∧ (∀ n ∈ s.maxLength, t.length ≤ n) ∧
      ∀ r ∈ s.pattern, Regex.Matches r t := by
  simp only [validates, Bool.and_eq_true, Option.all_eq_true, beq_iff_eq, List.contains_iff_mem,
    decide_eq_true_eq, Regex.isMatch_iff, and_assoc, Option.mem_def]

/-- The constraints on an object whose members are strings. -/
structure ObjectSchema where
  required : List (List Char)
  properties : List (List Char × StringSchema)
  additionalProperties : Bool

def ObjectSchema.validates (s : ObjectSchema) (members : List (List Char × List Char)) : Bool :=
  s.required.all (fun key => members.any fun member => member.1 == key) &&
    members.all fun member =>
      (s.properties.lookup member.1).elim s.additionalProperties fun property =>
        property.validates member.2

theorem ObjectSchema.validates_iff {s : ObjectSchema} {members : List (List Char × List Char)} :
    s.validates members = true ↔ (∀ key ∈ s.required, key ∈ members.map Prod.fst) ∧
      ∀ member ∈ members, (s.properties.lookup member.1).elim s.additionalProperties
        (fun property => property.validates member.2) = true := by
  simp only [validates, Bool.and_eq_true, List.all_eq_true, List.any_eq_true, beq_iff_eq,
    List.mem_map]

end Format
end YamlSigil
