/-
Protobuf wire format without groups: an octet string is a sequence of records,
each a tag varint and a value of one of four wire types.

`Records b rs` says that `b` is exactly the records `rs`.  The spelling of a
record is not unique, since varints may be longer than needed, but an octet
string has at most one reading, which `split` computes.
-/
import YamlSigil.Format.Varint

namespace YamlSigil
namespace Format
namespace Wire

open Varint (IsVarint read64 read64_eq_some_iff read64_append)

inductive Value where
  | varint (v : Nat)
  | i64 (b : List UInt8)
  | len (b : List UInt8)
  | i32 (b : List UInt8)
deriving Repr, DecidableEq

structure Record where
  field : Nat
  value : Value
deriving Repr, DecidableEq

/-- The octets `b` are a complete value of wire type `wt`.  Wire types 3 and 4
delimit groups and are not read. -/
inductive IsValue : Nat → List UInt8 → Value → Prop
  | varint {enc : List UInt8} {v : Nat} : IsVarint enc v → IsValue 0 enc (.varint v)
  | i64 {b : List UInt8} : b.length = 8 → IsValue 1 b (.i64 b)
  | len {enc b : List UInt8} : IsVarint enc b.length → IsValue 2 (enc ++ b) (.len b)
  | i32 {b : List UInt8} : b.length = 4 → IsValue 5 b (.i32 b)

/-- Field numbers are the positive ones below `2 ^ 29`. -/
def ValidField (n : Nat) : Prop := 1 ≤ n ∧ n < 2 ^ 29

instance (n : Nat) : Decidable (ValidField n) := inferInstanceAs (Decidable (_ ∧ _))

inductive IsRecord : List UInt8 → Record → Prop
  | mk {tag body : List UInt8} {wt field : Nat} {v : Value} :
      IsVarint tag (8 * field + wt) → ValidField field → IsValue wt body v →
      IsRecord (tag ++ body) ⟨field, v⟩

inductive Records : List UInt8 → List Record → Prop
  | nil : Records [] []
  | cons {b rest : List UInt8} {r : Record} {rs : List Record} :
      IsRecord b r → Records rest rs → Records (b ++ rest) (r :: rs)

theorem IsValue.wireType_lt {wt : Nat} {b : List UInt8} {v : Value} (h : IsValue wt b v) :
    wt < 8 := by
  cases h <;> decide

theorem IsValue.length_pos {wt : Nat} {b : List UInt8} {v : Value} (h : IsValue wt b v) :
    0 < b.length := by
  cases h with
  | varint hv => exact hv.length_pos
  | i64 hl => omega
  | len hv =>
    have := hv.length_pos
    rw [List.length_append]
    omega
  | i32 hl => omega

theorem IsRecord.length_pos {b : List UInt8} {r : Record} (h : IsRecord b r) : 0 < b.length := by
  cases h with
  | mk htag _ _ =>
    rw [List.length_append]
    have := htag.length_pos
    omega

theorem IsRecord.validField {b : List UInt8} {r : Record} (h : IsRecord b r) :
    ValidField r.field := by
  cases h with
  | mk _ hf _ => exact hf

theorem Records.append {a b : List UInt8} {rs ss : List Record} (ha : Records a rs)
    (hb : Records b ss) : Records (a ++ b) (rs ++ ss) := by
  induction ha with
  | nil => exact hb
  | cons hr _ ih =>
    rw [List.append_assoc]
    exact .cons hr ih

theorem Records.single {b : List UInt8} {r : Record} (h : IsRecord b r) : Records b [r] := by
  simpa using Records.cons h .nil

/-! ## The reader -/

/-- The value of wire type `wt` at the front of `b`, and the rest. -/
def readValue (wt : Nat) (b : List UInt8) : Option (Value × List UInt8) :=
  match wt with
  | 0 => (read64 b).map fun p => (.varint p.1, p.2)
  | 1 => if 8 ≤ b.length then some (.i64 (b.take 8), b.drop 8) else none
  | 2 => (read64 b).bind fun p =>
      if p.1 ≤ p.2.length then some (.len (p.2.take p.1), p.2.drop p.1) else none
  | 5 => if 4 ≤ b.length then some (.i32 (b.take 4), b.drop 4) else none
  | _ => none

theorem readValue_append {wt : Nat} {e : List UInt8} {v : Value} (h : IsValue wt e v)
    (t : List UInt8) : readValue wt (e ++ t) = some (v, t) := by
  cases h with
  | varint hv => simp [readValue, read64_append hv]
  | i64 hl => simp [readValue, List.take_left' hl, List.drop_left' hl, hl]
  | len hv => simp [readValue, List.append_assoc, read64_append hv]
  | i32 hl => simp [readValue, List.take_left' hl, List.drop_left' hl, hl]

theorem readValue_eq_some_iff {wt : Nat} {b t : List UInt8} {v : Value} :
    readValue wt b = some (v, t) ↔ ∃ e, b = e ++ t ∧ IsValue wt e v := by
  constructor
  · intro h
    match wt, h with
    | 0, h =>
      simp only [readValue, Option.map_eq_some_iff, Prod.mk.injEq] at h
      obtain ⟨⟨n, s⟩, hr, rfl, rfl⟩ := h
      obtain ⟨e, rfl, hv⟩ := read64_eq_some_iff.mp hr
      exact ⟨e, rfl, .varint hv⟩
    | 1, h =>
      simp only [readValue, Option.ite_none_right_eq_some, Option.some.injEq, Prod.mk.injEq] at h
      obtain ⟨hl, rfl, rfl⟩ := h
      exact ⟨b.take 8, (List.take_append_drop 8 b).symm, .i64 (List.length_take_of_le hl)⟩
    | 2, h =>
      simp only [readValue, Option.bind_eq_some_iff, Option.ite_none_right_eq_some,
        Option.some.injEq, Prod.mk.injEq] at h
      obtain ⟨⟨n, s⟩, hr, hn, rfl, rfl⟩ := h
      obtain ⟨e, rfl, hv⟩ := read64_eq_some_iff.mp hr
      refine ⟨e ++ s.take n, by rw [List.append_assoc, List.take_append_drop], .len ?_⟩
      rwa [List.length_take, Nat.min_eq_left hn]
    | 5, h =>
      simp only [readValue, Option.ite_none_right_eq_some, Option.some.injEq, Prod.mk.injEq] at h
      obtain ⟨hl, rfl, rfl⟩ := h
      exact ⟨b.take 4, (List.take_append_drop 4 b).symm, .i32 (List.length_take_of_le hl)⟩
    | 3, h | 4, h | _ + 6, h => simp [readValue] at h
  · intro h
    rcases h with ⟨e, rfl, hv⟩
    exact readValue_append hv t

def readRecord (b : List UInt8) : Option (Record × List UInt8) :=
  (read64 b).bind fun p =>
    if ValidField (p.1 / 8) then
      (readValue (p.1 % 8) p.2).map fun q => (⟨p.1 / 8, q.1⟩, q.2)
    else none

theorem readRecord_append {e : List UInt8} {r : Record} (h : IsRecord e r) (t : List UInt8) :
    readRecord (e ++ t) = some (r, t) := by
  cases h with
  | @mk tag body wt field v htag hf hv =>
    have hwt := hv.wireType_lt
    have hdiv : (8 * field + wt) / 8 = field := by omega
    have hmod : (8 * field + wt) % 8 = wt := by omega
    rw [readRecord, List.append_assoc, read64_append htag]
    simp [hdiv, hmod, hf, readValue_append hv]

theorem readRecord_eq_some_iff {b t : List UInt8} {r : Record} :
    readRecord b = some (r, t) ↔ ∃ e, b = e ++ t ∧ IsRecord e r := by
  constructor
  · intro h
    simp only [readRecord, Option.bind_eq_some_iff] at h
    obtain ⟨⟨tag, s⟩, hr, hs⟩ := h
    obtain ⟨e, rfl, htag⟩ := read64_eq_some_iff.mp hr
    split at hs
    · next hf =>
      simp only [Option.map_eq_some_iff, Prod.mk.injEq] at hs
      obtain ⟨⟨v, t'⟩, hv, rfl, rfl⟩ := hs
      obtain ⟨body, rfl, hval⟩ := readValue_eq_some_iff.mp hv
      refine ⟨e ++ body, (List.append_assoc e body t').symm, .mk ?_ hf hval⟩
      rwa [Nat.div_add_mod]
    · cases hs
  · intro h
    rcases h with ⟨e, rfl, hr⟩
    exact readRecord_append hr t

theorem length_lt_of_readRecord {b t : List UInt8} {r : Record}
    (h : readRecord b = some (r, t)) : t.length < b.length := by
  obtain ⟨e, rfl, hr⟩ := readRecord_eq_some_iff.mp h
  have := hr.length_pos
  simp only [List.length_append]
  omega

/-- The complete record sequence, or `none` if the octets are not one. -/
def split (b : List UInt8) : Option (List Record) :=
  if b = [] then some []
  else
    match _h : readRecord b with
    | some (r, t) => (split t).map (r :: ·)
    | none => none
termination_by b.length
decreasing_by exact length_lt_of_readRecord _h

@[simp] theorem split_nil : split [] = some [] := by
  rw [split, if_pos rfl]

theorem split_append {e : List UInt8} {r : Record} (hr : IsRecord e r) (t : List UInt8) :
    split (e ++ t) = (split t).map (r :: ·) := by
  have hne : e ++ t ≠ [] := List.ne_nil_of_length_pos (by
    have := hr.length_pos
    simp only [List.length_append]
    omega)
  have hread := readRecord_append hr t
  rw [split, if_neg hne]
  split
  · next r' t' h =>
    rw [hread] at h
    cases h
    rfl
  · next h => simp [hread] at h

theorem split_eq_some_iff {b : List UInt8} {rs : List Record} :
    split b = some rs ↔ Records b rs := by
  constructor
  · intro h
    induction hk : b.length using Nat.strongRecOn generalizing b rs with
    | ind k ih =>
      subst hk
      cases hr : readRecord b with
      | none =>
        by_cases hb : b = []
        · subst hb
          cases h.symm.trans split_nil
          exact .nil
        · rw [split, if_neg hb] at h
          split at h
          · next h' => simp [hr] at h'
          · cases h
      | some p =>
        obtain ⟨r, t⟩ := p
        have hlt := length_lt_of_readRecord hr
        obtain ⟨e, rfl, he⟩ := readRecord_eq_some_iff.mp hr
        rw [split_append he, Option.map_eq_some_iff] at h
        obtain ⟨rs', ht, rfl⟩ := h
        exact .cons he (ih t.length hlt ht rfl)
  · intro h
    induction h with
    | nil => exact split_nil
    | cons hr _ ih => rw [split_append hr, ih]; rfl

/-- An octet string has at most one reading. -/
theorem Records.unique {b : List UInt8} {rs ss : List Record} (h : Records b rs)
    (h' : Records b ss) : rs = ss :=
  Option.some.inj ((split_eq_some_iff.mpr h).symm.trans (split_eq_some_iff.mpr h'))

/-- Behind the first record the rest of the sequence is left. -/
theorem Records.tail {e t : List UInt8} {r : Record} {rs : List Record}
    (h : Records (e ++ t) rs) (hr : IsRecord e r) : ∃ rs', rs = r :: rs' ∧ Records t rs' := by
  have hs := split_eq_some_iff.mpr h
  rw [split_append hr, Option.map_eq_some_iff] at hs
  obtain ⟨rs', ht, rfl⟩ := hs
  exact ⟨rs', rfl, split_eq_some_iff.mp ht⟩

theorem Records.validField {b : List UInt8} {rs : List Record} (h : Records b rs) :
    ∀ r ∈ rs, ValidField r.field := by
  induction h with
  | nil =>
    intro r hr
    cases hr
  | cons hr _ ih =>
    intro r' hr'
    rcases List.mem_cons.mp hr' with rfl | hr'
    · exact hr.validField
    · exact ih r' hr'

theorem Records.eq_nil {rs : List Record} (h : Records [] rs) : rs = [] :=
  h.unique .nil

/-! ## Writing records -/

def tag (field wt : Nat) : List UInt8 := Varint.encode (8 * field + wt)

def lenField (field : Nat) (b : List UInt8) : List UInt8 :=
  tag field 2 ++ (Varint.encode b.length ++ b)

def varintField (field v : Nat) : List UInt8 := tag field 0 ++ Varint.encode v

/-- The octets of a field with `n` octets of content and a tag of one octet. -/
def lenFieldSize (n : Nat) : Nat := 1 + (Varint.encode n).length + n

theorem length_tag {field wt : Nat} (h : 8 * field + wt < 128) : (tag field wt).length = 1 := by
  rw [tag, Varint.encode_of_lt h]
  rfl

theorem length_lenField {field : Nat} (h : field < 16) (b : List UInt8) :
    (lenField field b).length = lenFieldSize b.length := by
  rw [lenField, List.length_append, List.length_append, length_tag (by omega), lenFieldSize,
    Nat.add_assoc]

theorem length_varintField_of_lt {field v : Nat} (h : field < 16) (hv : v < 128) :
    (varintField field v).length = 2 := by
  rw [varintField, List.length_append, length_tag (by omega), Varint.encode_of_lt hv]
  rfl

/-- The shortest spelling of a record. -/
def Record.encode (r : Record) : List UInt8 :=
  match r.value with
  | .varint v => varintField r.field v
  | .i64 b => tag r.field 1 ++ b
  | .len b => lenField r.field b
  | .i32 b => tag r.field 5 ++ b

theorem isVarint_tag {field wt : Nat} (hf : ValidField field) (hwt : wt < 8) :
    IsVarint (tag field wt) (8 * field + wt) := by
  obtain ⟨-, hlt⟩ := hf
  exact Varint.isVarint_encode (by omega)

theorem isRecord_lenField {field : Nat} {b : List UInt8} (hf : ValidField field)
    (hb : b.length < 2 ^ 64) : IsRecord (lenField field b) ⟨field, .len b⟩ :=
  .mk (isVarint_tag hf (by decide)) hf (.len (Varint.isVarint_encode hb))

theorem isRecord_varintField {field v : Nat} (hf : ValidField field) (hv : v < 2 ^ 64) :
    IsRecord (varintField field v) ⟨field, .varint v⟩ :=
  .mk (isVarint_tag hf (by decide)) hf (.varint (Varint.isVarint_encode hv))

/-! ## Occurrences of a field -/

def Record.IsLen (r : Record) : Prop := ∃ b, r.value = .len b

instance (r : Record) : Decidable r.IsLen :=
  match h : r.value with
  | .len b => isTrue ⟨b, h⟩
  | .varint _ | .i64 _ | .i32 _ => isFalse (by rintro ⟨_, h'⟩; rw [h] at h'; cases h')

/-- The body of a length-delimited record of field `n`. -/
def body? (n : Nat) (r : Record) : Option (List UInt8) :=
  match r.value with
  | .len b => if r.field = n then some b else none
  | .varint _ | .i64 _ | .i32 _ => none

/-- The bodies of the length-delimited records of field `n`, in order. -/
def bodies (n : Nat) (rs : List Record) : List (List UInt8) := rs.filterMap (body? n)

@[simp] theorem bodies_nil (n : Nat) : bodies n [] = [] := rfl

@[simp] theorem bodies_append (n : Nat) (rs ss : List Record) :
    bodies n (rs ++ ss) = bodies n rs ++ bodies n ss := List.filterMap_append

@[simp] theorem bodies_cons_self (n : Nat) (b : List UInt8) (rs : List Record) :
    bodies n (⟨n, .len b⟩ :: rs) = b :: bodies n rs := by
  simp [bodies, body?]

theorem bodies_cons_of_ne {n : Nat} {r : Record} (h : r.field ≠ n) (rs : List Record) :
    bodies n (r :: rs) = bodies n rs := by
  obtain ⟨field, value⟩ := r
  cases value with
  | len b => simp [bodies, body?, show field ≠ n from h]
  | varint _ | i64 _ | i32 _ => rfl

theorem bodies_cons_of_not_len {r : Record} (h : ¬ r.IsLen) (n : Nat) (rs : List Record) :
    bodies n (r :: rs) = bodies n rs := by
  obtain ⟨field, value⟩ := r
  cases value with
  | len b => exact absurd ⟨b, rfl⟩ h
  | varint _ | i64 _ | i32 _ => rfl

theorem mem_of_mem_bodies {n : Nat} {b : List UInt8} {rs : List Record} (h : b ∈ bodies n rs) :
    ⟨n, .len b⟩ ∈ rs := by
  obtain ⟨⟨field, value⟩, hr, hb⟩ := List.mem_filterMap.mp h
  cases value with
  | len b' =>
    obtain ⟨hfield, hval⟩ := (Option.ite_none_right_eq_some (p := field = n)).mp hb
    cases hval
    subst hfield
    exact hr
  | varint _ | i64 _ | i32 _ => cases hb

theorem IsRecord.length_le {e b : List UInt8} {n : Nat} (h : IsRecord e ⟨n, .len b⟩) :
    b.length ≤ e.length := by
  cases h with
  | mk _ _ hval =>
    cases hval with
    | len _ =>
      rw [List.length_append, List.length_append]
      omega

/-- A body is no longer than the octets it stands in. -/
theorem Records.length_body_le {w b : List UInt8} {n : Nat} {rs : List Record} (h : Records w rs)
    (hb : b ∈ bodies n rs) : b.length ≤ w.length := by
  have hmem := mem_of_mem_bodies hb
  clear hb
  induction h with
  | nil => cases hmem
  | cons hr _ ih =>
    rw [List.length_append]
    rcases List.mem_cons.mp hmem with heq | hrest
    · rw [← heq] at hr
      have := hr.length_le
      omega
    · have := ih hrest
      omega

end Wire
end Format
end YamlSigil
