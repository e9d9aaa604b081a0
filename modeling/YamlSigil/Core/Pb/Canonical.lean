/-
The facade writes the shortest wire of a signature message.

A decoder takes the algorithm number from the low 32 bits of its varint, so a
number has many spellings, and protobuf's own, the sign extension to 64 bits, is
not the shortest one for a negative number.  Against the wires that use it the
facade's octets are the shortest, and the only ones of their length in field
order.  Without it the same holds for small non-negative numbers.
-/
import Mathlib.Algebra.Ring.Int.Defs
import YamlSigil.Core.Pb.Proto3
import YamlSigil.Format.Shortest

namespace YamlSigil
namespace Core
namespace Pb

open Format Wire

namespace Proto3

/-! ## Algorithm numbers -/

/-- The varint protobuf writes for an enum number. -/
def enumVarint (n : Int32) : Nat := n.toInt64.toUInt64.toNat

theorem enumNumber_eq_iff {v : Nat} {n : Int32} :
    enumNumber v = n ↔ v % 2 ^ 32 = enumVarint n % 2 ^ 32 := by
  have hn : (UInt32.ofNat (enumVarint n)).toInt32 = n := enumNumber_toNat n
  constructor
  · intro h
    rw [← hn] at h
    have h32 : UInt32.ofNat v = UInt32.ofNat (enumVarint n) :=
      UInt32.toBitVec_inj.mp (congrArg Int32.toBitVec h)
    have := congrArg UInt32.toNat h32
    rwa [UInt32.toNat_ofNat', UInt32.toNat_ofNat'] at this
  · intro h
    rw [← hn]
    refine congrArg UInt32.toInt32 (UInt32.toNat_inj.mp ?_)
    rwa [UInt32.toNat_ofNat', UInt32.toNat_ofNat']

theorem enumVarint_of_nonneg {n : Int32} (h : 0 ≤ n.toInt) : (enumVarint n : Int) = n.toInt := by
  have h64 : 0 ≤ n.toInt64 := by
    rw [Int64.le_iff_toInt_le, Int32.toInt_toInt64]
    exact h
  rw [enumVarint, Int64.toNat_toUInt64_of_le h64, Int64.toNatClampNeg, Int32.toInt_toInt64]
  exact Int.toNat_of_nonneg h

theorem enumVarint_le {n : Int32} {v : Nat} (h : 0 ≤ n.toInt) (hv : enumNumber v = n) :
    enumVarint n ≤ v := by
  have hmod := enumNumber_eq_iff.mp hv
  have hval := enumVarint_of_nonneg h
  have hlt := n.toInt_lt
  omega

/-- A number below `2 ^ 28` has a spelling of four octets, and the others that
are cut down to it have five. -/
theorem eq_enumVarint_of_length_le {n : Int32} {v : Nat} (h : 0 ≤ n.toInt)
    (hsmall : n.toInt < 2 ^ 28) (hv : enumNumber v = n)
    (hlen : (Varint.encode v).length ≤ (Varint.encode (enumVarint n)).length) :
    v = enumVarint n := by
  have hmod := enumNumber_eq_iff.mp hv
  have hval := enumVarint_of_nonneg h
  by_cases hlt : v < 2 ^ 32
  · omega
  · have hlong : 4 < (Varint.encode v).length := Varint.lt_length_encode (by omega)
    have hshort : (Varint.encode (enumVarint n)).length ≤ 4 :=
      Varint.length_encode_le (k := 3) (by omega)
    omega

/-! ## Where the fields of a message come from -/

/-- What a field holds was there before or is in a record. -/
structure Sources (m : GeneratedYamlSigilSignature) (rs : List Record)
    (m' : GeneratedYamlSigilSignature) : Prop where
  alg : m'.alg = m.alg ∨ ∃ v, enumNumber v = m'.alg ∧ ⟨1, .varint v⟩ ∈ rs
  keyid : m'.keyid = m.keyid ∨ ∃ k, m'.keyid = some k ∧ ⟨2, .len (asBytes k)⟩ ∈ rs
  signature : m'.signature = m.signature ∨ ⟨3, .len m'.signature⟩ ∈ rs

theorem mergeSignatureField_sources {m m' : GeneratedYamlSigilSignature} {r : Record}
    (h : mergeSignatureField m r = some m') : Sources m [r] m' := by
  obtain ⟨field, value⟩ := r
  unfold mergeSignatureField at h
  simp only at h
  by_cases h1 : field = 1
  · subst h1
    rw [if_pos rfl] at h
    cases value with
    | varint v =>
      cases h
      exact ⟨.inr ⟨v, rfl, List.mem_singleton_self _⟩, .inl rfl, .inl rfl⟩
    | len _ | i64 _ | i32 _ => cases h
  · rw [if_neg h1] at h
    by_cases h2 : field = 2
    · subst h2
      rw [if_pos rfl] at h
      cases value with
      | len b =>
        obtain ⟨k, hk, hm⟩ := Option.map_eq_some_iff.mp h
        subst hm
        rw [fromUtf8_eq_some_iff.mp hk]
        exact ⟨.inl rfl, .inr ⟨k, rfl, List.mem_singleton_self _⟩, .inl rfl⟩
      | varint _ | i64 _ | i32 _ => cases h
    · rw [if_neg h2] at h
      by_cases h3 : field = 3
      · subst h3
        rw [if_pos rfl] at h
        cases value with
        | len b =>
          cases h
          exact ⟨.inl rfl, .inl rfl, .inr (List.mem_singleton_self _)⟩
        | varint _ | i64 _ | i32 _ => cases h
      · rw [if_neg h3] at h
        cases h
        exact ⟨.inl rfl, .inl rfl, .inl rfl⟩

theorem mem_cons_of_mem_singleton {r s : Record} (rs : List Record) (h : s ∈ [r]) : s ∈ r :: rs :=
  List.mem_cons.mpr (.inl (List.mem_singleton.mp h))

theorem Sources.cons {m m₁ m' : GeneratedYamlSigilSignature} {r : Record} {rs : List Record}
    (h : Sources m [r] m₁) (h' : Sources m₁ rs m') : Sources m (r :: rs) m' where
  alg := by
    rcases h'.alg with heq | ⟨v, hv, hmem⟩
    · rw [heq]
      rcases h.alg with heq | ⟨v, hv, hmem⟩
      · exact .inl heq
      · exact .inr ⟨v, hv, mem_cons_of_mem_singleton rs hmem⟩
    · exact .inr ⟨v, hv, List.mem_cons_of_mem r hmem⟩
  keyid := by
    rcases h'.keyid with heq | ⟨k, hk, hmem⟩
    · rw [heq]
      rcases h.keyid with heq | ⟨k, hk, hmem⟩
      · exact .inl heq
      · exact .inr ⟨k, hk, mem_cons_of_mem_singleton rs hmem⟩
    · exact .inr ⟨k, hk, List.mem_cons_of_mem r hmem⟩
  signature := by
    rcases h'.signature with heq | hmem
    · rw [heq]
      exact h.signature.imp_right (mem_cons_of_mem_singleton rs)
    · exact .inr (List.mem_cons_of_mem r hmem)

theorem mergeSignature_sources {rs : List Record} {m m' : GeneratedYamlSigilSignature}
    (h : rs.foldlM mergeSignatureField m = some m') : Sources m rs m' := by
  induction rs generalizing m with
  | nil =>
    cases h
    exact ⟨.inl rfl, .inl rfl, .inl rfl⟩
  | cons r rs ih =>
    rw [List.foldlM_cons] at h
    obtain ⟨m₁, hr, hrs⟩ := Option.bind_eq_some_iff.mp h
    exact (mergeSignatureField_sources hr).cons (ih hrs)

/-! ## The records a message must hold -/

/-- The records of a message whose algorithm number is spelled `v`, if at all. -/
def spelledRecords (v : Option Nat) (keyid : Option Text) (signature : Bytes) : List Record :=
  (v.toList.map fun v => ⟨1, .varint v⟩) ++ keyidRecords keyid ++ signatureRecords signature

/-- A number other than zero must be spelled. -/
def Spelling (n : Int32) : Option Nat → Prop
  | none => n = 0
  | some v => n ≠ 0 ∧ enumNumber v = n

/-- The spelling the facade chooses. -/
def facadeSpelling (n : Int32) : Option Nat := if n ≠ 0 then some (enumVarint n) else none

theorem facadeSpelling_eq {n : Int32} {v : Option Nat} (h : Spelling n v)
    (hext : ∀ w ∈ v, w = enumVarint n) : facadeSpelling n = v := by
  cases v with
  | none =>
    have hn : n = 0 := h
    exact if_neg (not_not.mpr hn)
  | some w =>
    rw [hext w rfl]
    exact if_pos h.1

theorem facadeRecords_eq (n : Int32) (keyid : Option Text) (signature : Bytes) (u : UnknownFields) :
    facadeRecords ⟨n, keyid, signature, u⟩ =
      spelledRecords (facadeSpelling n) keyid signature := by
  unfold facadeRecords spelledRecords algorithmRecords facadeSpelling
  by_cases hn : n = 0
  · rw [if_neg (not_not.mpr hn), if_neg (not_not.mpr hn)]
    rfl
  · rw [if_pos hn, if_pos hn]
    rfl

theorem onePerField_spelledRecords (v : Option Nat) (keyid : Option Text) (signature : Bytes) :
    OnePerField (spelledRecords v keyid signature) := by
  have hsig : signatureRecords signature = [] ∨
      signatureRecords signature = [⟨3, .len signature⟩] := by
    unfold signatureRecords
    by_cases hs : signature = []
    · exact .inl (if_neg (not_not.mpr hs))
    · exact .inr (if_pos hs)
  rcases hsig with hsig | hsig <;> cases v <;> cases keyid <;>
    simp [OnePerField, spelledRecords, keyidRecords, hsig]

/-- What the decoder reads as a message without unknown fields holds a spelling of
its number and the other two fields. -/
theorem exists_spelledRecords_subset {rs : List Record} {g : GeneratedYamlSigilSignature}
    (h : rs.foldlM mergeSignatureField {} = some g) :
    ∃ v, Spelling g.alg v ∧ spelledRecords v g.keyid g.signature ⊆ rs := by
  obtain ⟨halg, hkeyid, hsig⟩ := mergeSignature_sources h
  have hk : keyidRecords g.keyid ⊆ rs := by
    rcases hkeyid with hnone | ⟨k, hk, hmem⟩
    · rw [hnone]
      exact List.nil_subset rs
    · rw [hk]
      exact List.cons_subset.mpr ⟨hmem, List.nil_subset rs⟩
  have hs : signatureRecords g.signature ⊆ rs := by
    unfold signatureRecords
    by_cases hne : g.signature = []
    · rw [if_neg (not_not.mpr hne)]
      exact List.nil_subset rs
    · rw [if_pos hne]
      exact List.cons_subset.mpr ⟨hsig.resolve_left hne, List.nil_subset rs⟩
  by_cases hn : g.alg = 0
  · exact ⟨none, hn, List.append_subset.mpr ⟨hk, hs⟩⟩
  · obtain ⟨v, hv, hmem⟩ := halg.resolve_left hn
    exact ⟨some v, ⟨hn, hv⟩, List.append_subset.mpr
      ⟨List.append_subset.mpr ⟨List.cons_subset.mpr ⟨hmem, List.nil_subset rs⟩, hk⟩, hs⟩⟩

/-! ## Lengths -/

theorem octets_eq_encodeAll (n : Int32) (keyid : Option Text) (signature : Bytes) :
    (YamlSigilSignature.mk n keyid signature {}).octets =
      encodeAll (spelledRecords (facadeSpelling n) keyid signature) := by
  rw [← facadeRecords_eq n keyid signature {}]
  unfold YamlSigilSignature.octets facadeRecords
  rw [encodeAll_append, encodeAll_append, List.flatten_nil, List.append_nil]
  have halg : YamlSigilSignature.algorithmOctets n = encodeAll (algorithmRecords n) := by
    unfold YamlSigilSignature.algorithmOctets algorithmRecords
    by_cases hn : n = 0
    · rw [if_neg (not_not.mpr hn), if_neg (not_not.mpr hn)]
      rfl
    · rw [if_pos hn, if_pos hn]
      exact (List.append_nil _).symm
  have hkeyid : YamlSigilSignature.keyidOctets keyid = encodeAll (keyidRecords keyid) := by
    cases keyid with
    | none => rfl
    | some k => exact (List.append_nil _).symm
  have hsig : YamlSigilSignature.signatureOctets signature =
      encodeAll (signatureRecords signature) := by
    unfold YamlSigilSignature.signatureOctets signatureRecords
    by_cases hs : signature = []
    · rw [if_neg (not_not.mpr hs), if_neg (not_not.mpr hs)]
      rfl
    · rw [if_pos hs, if_pos hs]
      exact (List.append_nil _).symm
  rw [halg, hkeyid, hsig]

theorem length_spelledRecords_some (v : Nat) (keyid : Option Text) (signature : Bytes) :
    (encodeAll (spelledRecords (some v) keyid signature)).length =
      (Varint.encode v).length + (tag 1 0).length +
        (encodeAll (spelledRecords none keyid signature)).length := by
  unfold spelledRecords
  rw [List.append_assoc, encodeAll_append]
  show (((tag 1 0 ++ Varint.encode v) ++ []) ++ _).length = _
  rw [List.length_append, List.append_nil, List.length_append, Nat.add_comm (tag 1 0).length]
  rfl

/-- The spelling of the number decides which of two messages is shorter. -/
theorem length_facadeSpelling_le {n : Int32} {v : Option Nat} (hv : Spelling n v)
    (hle : ∀ w ∈ v, (Varint.encode (enumVarint n)).length ≤ (Varint.encode w).length)
    (keyid : Option Text) (signature : Bytes) :
    (encodeAll (spelledRecords (facadeSpelling n) keyid signature)).length ≤
      (encodeAll (spelledRecords v keyid signature)).length := by
  cases v with
  | none =>
    rw [facadeSpelling_eq hv fun w hw => by cases hw]
  | some w =>
    have hw := hle w rfl
    rw [facadeSpelling, if_pos hv.1, length_spelledRecords_some, length_spelledRecords_some]
    omega

theorem length_le_of_facadeSpelling {n : Int32} {w : Nat} (hn : n ≠ 0) {keyid : Option Text}
    {signature : Bytes}
    (hle : (encodeAll (spelledRecords (some w) keyid signature)).length ≤
      (encodeAll (spelledRecords (facadeSpelling n) keyid signature)).length) :
    (Varint.encode w).length ≤ (Varint.encode (enumVarint n)).length := by
  rw [facadeSpelling, if_pos hn, length_spelledRecords_some, length_spelledRecords_some] at hle
  omega

/-- Every algorithm varint is one that protobuf writes. -/
def SignExtended (rs : List Record) : Prop :=
  ∀ v, ⟨1, .varint v⟩ ∈ rs → v = enumVarint (enumNumber v)

theorem Spelling.signExtended {n : Int32} {v : Option Nat} {keyid : Option Text}
    {signature : Bytes} {rs : List Record} (hv : Spelling n v) (hext : SignExtended rs)
    (hsub : spelledRecords v keyid signature ⊆ rs) : ∀ w ∈ v, w = enumVarint n := by
  intro w hw
  rw [Option.mem_def] at hw
  subst hw
  rw [← hv.2]
  exact hext w (hsub (List.mem_append_left _ (List.mem_append_left _ (List.mem_singleton_self _))))

end Proto3

open Proto3

section
variable {n : Int32} {keyid : Option Text} {signature wire : Bytes} {rs : List Record}
  {g : GeneratedYamlSigilSignature}

/-- No wire of the message is shorter than the facade's. -/
theorem length_octets_le (hrs : Records wire rs) (hg : decodeSignature wire = some g)
    (hn : 0 ≤ g.alg.toInt ∨ SignExtended rs) :
    (YamlSigilSignature.mk g.alg g.keyid g.signature {}).octets.length ≤ wire.length := by
  unfold decodeSignature mergeSignature at hg
  rw [split_eq_some_iff.mpr hrs, Option.bind_some] at hg
  obtain ⟨v, hv, hsub⟩ := exists_spelledRecords_subset hg
  rw [octets_eq_encodeAll]
  refine Nat.le_trans (length_facadeSpelling_le hv (fun w hw => ?_) _ _)
    (hrs.length_encodeAll_le (onePerField_spelledRecords v _ _) hsub)
  rcases hn with hn | hext
  · rw [Option.mem_def] at hw
    subst hw
    exact Varint.length_encode_mono (enumVarint_le hn hv.2)
  · rw [hv.signExtended hext hsub w hw]

/-- In field order no other is as short. -/
theorem eq_octets (hrs : Records wire rs) (hg : decodeSignature wire = some g)
    (hn : 0 ≤ g.alg.toInt ∧ g.alg.toInt < 2 ^ 28 ∨ SignExtended rs) (hord : FieldOrder rs)
    (hle : wire.length ≤ (YamlSigilSignature.mk g.alg g.keyid g.signature {}).octets.length) :
    wire = (YamlSigilSignature.mk g.alg g.keyid g.signature {}).octets := by
  unfold decodeSignature mergeSignature at hg
  rw [split_eq_some_iff.mpr hrs, Option.bind_some] at hg
  obtain ⟨v, hv, hsub⟩ := exists_spelledRecords_subset hg
  have hone := onePerField_spelledRecords v g.keyid g.signature
  rw [octets_eq_encodeAll] at hle ⊢
  have hlen := hrs.length_encodeAll_le hone hsub
  have hext : ∀ w ∈ v, w = enumVarint g.alg := by
    intro w hw
    rcases hn with ⟨hnonneg, hsmall⟩ | hext
    · rw [Option.mem_def] at hw
      subst hw
      exact eq_enumVarint_of_length_le hnonneg hsmall hv.2
        (length_le_of_facadeSpelling hv.1 (Nat.le_trans hlen hle))
    · exact hv.signExtended hext hsub w hw
  rw [facadeSpelling_eq hv hext] at hle ⊢
  exact hrs.eq_encodeAll hone hsub hord hle

theorem fieldOrder_facadeRecords (n : Int32) (keyid : Option Text) (signature : Bytes) :
    FieldOrder (facadeRecords ⟨n, keyid, signature, {}⟩) := by
  rw [facadeRecords_eq]
  exact (onePerField_spelledRecords _ _ _).fieldOrder

theorem signExtended_facadeRecords (n : Int32) (keyid : Option Text) (signature : Bytes) :
    SignExtended (facadeRecords ⟨n, keyid, signature, {}⟩) := by
  intro v hv
  have hrecords : ⟨1, .varint v⟩ ∈ algorithmRecords n := by
    unfold facadeRecords at hv
    rcases List.mem_append.mp hv with hv | hv
    · rcases List.mem_append.mp hv with hv | hv
      · exact hv
      · cases keyid with
        | none => cases hv
        | some k =>
          cases List.mem_singleton.mp hv
    · unfold signatureRecords at hv
      by_cases hs : signature = []
      · rw [if_neg (not_not.mpr hs)] at hv
        cases hv
      · rw [if_pos hs] at hv
        cases List.mem_singleton.mp hv
  unfold algorithmRecords at hrecords
  by_cases hn : n = 0
  · rw [if_neg (not_not.mpr hn)] at hrecords
    cases hrecords
  · rw [if_pos hn] at hrecords
    cases List.mem_singleton.mp hrecords
    rw [enumNumber_toNat]
    rfl

/-- Two messages without unknown fields are encoded differently. -/
theorem octets_injective {n n' : Int32} {keyid keyid' : Option Text} {signature signature' : Bytes}
    (hlen : (YamlSigilSignature.mk n keyid signature {}).octets.length < 2 ^ 64)
    (h : (YamlSigilSignature.mk n' keyid' signature' {}).octets =
      (YamlSigilSignature.mk n keyid signature {}).octets) :
    n' = n ∧ keyid' = keyid ∧ signature' = signature := by
  have hdec := decodeSignature_octets (m := ⟨n, keyid, signature, {}⟩) rfl hlen
  have hdec' := decodeSignature_octets (m := ⟨n', keyid', signature', {}⟩) rfl (by rwa [h])
  rw [h, hdec] at hdec'
  cases hdec'
  exact ⟨rfl, rfl, rfl⟩

/-- The facade's encoding of a signature message is read back by proto3, and it is
the shortest wire of the message: for every number among the wires with
sign-extended algorithm varints, for a non-negative number among all. -/
theorem facade_encoding_canonical (B : Buffa) (n : Int32) (keyid : Option Text)
    (signature : Bytes) :
    ((∃ wire, (YamlSigilSignature.mk n keyid signature {}).encodeToVec B = .ok wire) ↔
      (YamlSigilSignature.mk n keyid signature {}).octets.length ≤ B.maxMessageBytes.toNat) ∧
    ∀ wire, (YamlSigilSignature.mk n keyid signature {}).encodeToVec B = .ok wire →
      decodeSignature wire = some ⟨n, keyid, signature, {}⟩ ∧
      (∃ rs, Records wire rs ∧ FieldOrder rs ∧ SignExtended rs) ∧
      (∀ wire' rs unknown, Records wire' rs →
        decodeSignature wire' = some ⟨n, keyid, signature, unknown⟩ →
        (0 ≤ n.toInt ∨ SignExtended rs → wire.length ≤ wire'.length) ∧
        ((0 ≤ n.toInt ∧ n.toInt < 2 ^ 28) ∨ SignExtended rs → FieldOrder rs →
          wire'.length ≤ wire.length → wire' = wire)) ∧
      ∀ n' keyid' signature',
        (YamlSigilSignature.mk n' keyid' signature' {}).encodeToVec B = .ok wire →
        n' = n ∧ keyid' = keyid ∧ signature' = signature := by
  have hmax := B.maxMessageBytes.toNat_lt
  refine ⟨⟨fun h => ?_, fun h => ⟨_, encodeFacadeToVec_eq_ok_iff.mpr ⟨rfl, h⟩⟩⟩, fun wire h => ?_⟩
  · obtain ⟨wire, h⟩ := h
    obtain ⟨hw, hle⟩ := encodeFacadeToVec_eq_ok_iff.mp h
    have hw : wire = (YamlSigilSignature.mk n keyid signature {}).octets := hw
    rwa [hw] at hle
  · obtain ⟨hw, hle⟩ := encodeFacadeToVec_eq_ok_iff.mp h
    have hw : wire = (YamlSigilSignature.mk n keyid signature {}).octets := hw
    subst hw
    refine ⟨decodeSignature_octets rfl (by omega), ⟨_, records_octets rfl (by omega),
      fieldOrder_facadeRecords n keyid signature, signExtended_facadeRecords n keyid signature⟩,
      fun wire' rs unknown hrs hg => ?_, fun n' keyid' signature' h' => ?_⟩
    · exact ⟨length_octets_le hrs hg, eq_octets hrs hg⟩
    · exact octets_injective (by omega) (encodeFacadeToVec_eq_ok_iff.mp h').1.symm

/-- The number -1 without sign extension, in six octets. -/
theorem negative_number_has_shorter_wire :
    ¬ ∀ (n : Int32) (keyid : Option Text) (signature wire wire' : Bytes),
      (YamlSigilSignature.mk n keyid signature {}).encodeToVec buffa = .ok wire →
      decodeSignature wire' = some ⟨n, keyid, signature, {}⟩ → wire.length ≤ wire'.length := by
  intro hclaim
  have hwire : (YamlSigilSignature.mk (-1) none [] {}).encodeToVec buffa =
      .ok (0x08 :: (List.replicate 9 0xFF ++ [0x01])) := by decide +kernel
  have hrecord : IsRecord ([0x08] ++ [0xFF, 0xFF, 0xFF, 0xFF, 0x0F]) ⟨1, .varint 0xFFFFFFFF⟩ := by
    refine IsRecord.mk ⟨?_, ?_, ?_, ?_⟩ (by decide) (.varint ⟨?_, ?_, ?_, ?_⟩) <;>
      simp [Varint.Terminated, Varint.value]
  have hdecode : decodeSignature ([0x08] ++ [0xFF, 0xFF, 0xFF, 0xFF, 0x0F]) =
      some ⟨-1, none, [], {}⟩ := by
    unfold decodeSignature mergeSignature
    rw [split_eq_some_iff.mpr (Records.single hrecord)]
    decide
  exact absurd (hclaim (-1) none [] _ _ hwire hdecode) (by decide)

end

end Pb
end Core
end YamlSigil
