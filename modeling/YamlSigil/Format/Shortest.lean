/-
Shortest spellings.

A record can be spelled in many ways, since a varint may be longer than needed.
`Shortest c e` says that `c` is no longer than `e` and that `e` is `c` when it is
as short.  Varints, values, records and whole sequences have a shortest spelling
in this sense, and the relation passes through concatenation.  A message that
must hold certain records, of one field each, is shortest when it holds nothing
else.
-/
import YamlSigil.Format.Wire
import Mathlib.Data.List.Perm.Subperm

namespace YamlSigil
namespace Format
namespace Wire

open Varint (IsVarint)

structure Shortest (c e : List UInt8) : Prop where
  length_le : c.length ≤ e.length
  eq_of_le : e.length ≤ c.length → e = c

theorem Shortest.refl (c : List UInt8) : Shortest c c := ⟨Nat.le_refl _, fun _ => rfl⟩

theorem Shortest.append {c e c' e' : List UInt8} (h : Shortest c e) (h' : Shortest c' e') :
    Shortest (c ++ c') (e ++ e') where
  length_le := by
    have hl := h.length_le
    have hl' := h'.length_le
    rw [List.length_append, List.length_append]
    omega
  eq_of_le := by
    intro hle
    have hl := h.length_le
    have hl' := h'.length_le
    rw [List.length_append, List.length_append] at hle
    rw [h.eq_of_le (by omega), h'.eq_of_le (by omega)]

/-! ## Records -/

theorem shortest_encode {e : List UInt8} {v : Nat} (h : IsVarint e v) :
    Shortest (Varint.encode v) e := by
  obtain ⟨hterm, -, hval, -⟩ := h
  subst hval
  exact ⟨Varint.length_encode_value_le hterm, Varint.eq_encode_value hterm⟩

theorem IsRecord.shortest {e : List UInt8} {r : Record} (h : IsRecord e r) :
    Shortest r.encode e := by
  cases h with
  | mk htag _ hval =>
    cases hval with
    | varint hv => exact (shortest_encode htag).append (shortest_encode hv)
    | i64 _ => exact (shortest_encode htag).append (.refl _)
    | len hv => exact (shortest_encode htag).append ((shortest_encode hv).append (.refl _))
    | i32 _ => exact (shortest_encode htag).append (.refl _)

/-- The shortest spelling of a record sequence. -/
def encodeAll (rs : List Record) : List UInt8 := rs.flatMap Record.encode

theorem encodeAll_append (rs ss : List Record) :
    encodeAll (rs ++ ss) = encodeAll rs ++ encodeAll ss := List.flatMap_append

theorem Records.shortest {w : List UInt8} {rs : List Record} (h : Records w rs) :
    Shortest (encodeAll rs) w := by
  induction h with
  | nil => exact .refl _
  | cons hr _ ih => exact hr.shortest.append ih

theorem length_encode_pos (r : Record) : 0 < r.encode.length := by
  obtain ⟨field, value⟩ := r
  have htag : ∀ wt, 0 < (tag field wt).length := fun wt =>
    List.length_pos_of_ne_nil (Varint.encode_ne_nil _)
  cases value with
  | varint v =>
    show 0 < (tag field 0 ++ _).length
    have := htag 0
    rw [List.length_append]
    omega
  | i64 b =>
    show 0 < (tag field 1 ++ _).length
    have := htag 1
    rw [List.length_append]
    omega
  | len b =>
    show 0 < (tag field 2 ++ _).length
    have := htag 2
    rw [List.length_append]
    omega
  | i32 b =>
    show 0 < (tag field 5 ++ _).length
    have := htag 5
    rw [List.length_append]
    omega

/-! ## Field order -/

def FieldOrder (rs : List Record) : Prop := rs.Pairwise fun r s => r.field ≤ s.field

/-- Each record has a field number of its own, and the numbers increase. -/
def OnePerField (rs : List Record) : Prop := rs.Pairwise fun r s => r.field < s.field

theorem OnePerField.nodup {rs : List Record} (h : OnePerField rs) : rs.Nodup := by
  refine List.Pairwise.imp (fun hlt heq => ?_) h
  rw [heq] at hlt
  exact Nat.lt_irrefl _ hlt

theorem OnePerField.fieldOrder {rs : List Record} (h : OnePerField rs) : FieldOrder rs :=
  List.Pairwise.imp Nat.le_of_lt h

theorem OnePerField.eq_of_mem {rs : List Record} (h : OnePerField rs) {r s : Record} (hr : r ∈ rs)
    (hs : s ∈ rs) (hrs : r.field = s.field) : r = s := by
  induction h with
  | nil => cases hr
  | cons hlt _ ih =>
    rcases List.mem_cons.mp hr with hr | hr
    · rcases List.mem_cons.mp hs with hs | hs
      · rw [hr, hs]
      · rw [hr] at hrs
        exact absurd hrs (Nat.ne_of_lt (hlt s hs))
    · rcases List.mem_cons.mp hs with hs | hs
      · rw [hs] at hrs
        exact absurd hrs.symm (Nat.ne_of_lt (hlt r hr))
      · exact ih hr hs

/-- Two orders of the same records, one of them without repetition. -/
theorem FieldOrder.eq_of_perm {rs need : List Record} (hrs : FieldOrder rs)
    (hneed : OnePerField need) (hperm : rs.Perm need) : rs = need :=
  List.Perm.eq_of_pairwise
    (fun _ _ ha hb hle hle' => hneed.eq_of_mem (hperm.mem_iff.mp ha) hb (Nat.le_antisymm hle hle'))
    hrs hneed.fieldOrder hperm

theorem length_encodeAll_of_perm {rs ss : List Record} (h : rs.Perm ss) :
    (encodeAll rs).length = (encodeAll ss).length :=
  (h.flatMap_right Record.encode).length_eq

/-- A record more is an octet more. -/
theorem exists_perm_append {need rs : List Record} (hneed : OnePerField need) (hsub : need ⊆ rs) :
    ∃ extra, rs.Perm (need ++ extra) := by
  obtain ⟨l, hl, hsublist⟩ := List.subperm_of_subset hneed.nodup hsub
  obtain ⟨extra, hextra⟩ := hsublist.exists_perm_append
  exact ⟨extra, hextra.trans (hl.append_right extra)⟩

/-- The records a message must hold bound its length from below. -/
theorem Records.length_encodeAll_le {w : List UInt8} {need rs : List Record} (hw : Records w rs)
    (hneed : OnePerField need) (hsub : need ⊆ rs) : (encodeAll need).length ≤ w.length := by
  obtain ⟨extra, hperm⟩ := exists_perm_append hneed hsub
  have hle := hw.shortest.length_le
  rw [length_encodeAll_of_perm hperm, encodeAll_append, List.length_append] at hle
  omega

/-- In field order only one message is as short as the records it must hold. -/
theorem Records.eq_encodeAll {w : List UInt8} {need rs : List Record} (hw : Records w rs)
    (hneed : OnePerField need) (hsub : need ⊆ rs) (hord : FieldOrder rs)
    (hle : w.length ≤ (encodeAll need).length) : w = encodeAll need := by
  obtain ⟨extra, hperm⟩ := exists_perm_append hneed hsub
  have hshort := hw.shortest
  have hlen := hshort.length_le
  have hsum := length_encodeAll_of_perm hperm
  rw [encodeAll_append, List.length_append] at hsum
  cases extra with
  | nil =>
    rw [List.append_nil] at hperm
    have hrs := hord.eq_of_perm hneed hperm
    subst hrs
    exact hshort.eq_of_le hle
  | cons r extra =>
    have hpos : 0 < (encodeAll (r :: extra)).length := by
      show 0 < (r.encode ++ encodeAll extra).length
      have := length_encode_pos r
      rw [List.length_append]
      omega
    omega

end Wire
end Format
end YamlSigil
