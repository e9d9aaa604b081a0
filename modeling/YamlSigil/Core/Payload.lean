/-
The payload stream rules: UTF-8, no byte order mark, and a line terminator at
the end unless the payload is empty.
-/
import YamlSigil.Core.Basic

namespace YamlSigil
namespace Core

open Format

inductive PayloadInvariantError where
  | invalidUtf8
  | bomAtOffset0
  | missingTrailingLineTerminator
deriving Repr, DecidableEq

def PayloadInvariantError.toText : PayloadInvariantError → Text
  | .invalidUtf8 => "payload is not valid UTF-8".toList
  | .bomAtOffset0 => "payload must not start with a UTF-8 BOM".toList
  | .missingTrailingLineTerminator =>
    "non-empty payload must end with a line terminator (LF, optional CR before LF)".toList

def validatePayloadStream (payload : Bytes) : Except PayloadInvariantError Unit :=
  if (fromUtf8 payload).isNone then .error .invalidUtf8
  else if bomAtZero payload then .error .bomAtOffset0
  else
    match payload.getLast? with
    | none => .ok ()
    | some last => if last = 0x0A then .ok () else .error .missingTrailingLineTerminator

/-- A line starts right behind `pre`: it is the start of the text, or a line
feed comes before. -/
def LineStart (pre : Bytes) : Prop := pre = [] ∨ ∃ p, pre = p ++ [0x0A]

theorem lineStart_nil : LineStart [] := .inl rfl

theorem lineStart_append_lf (p : Bytes) : LineStart (p ++ [0x0A]) := .inr ⟨p, rfl⟩

theorem lineStart_iff {pre : Bytes} : LineStart pre ↔ ∀ b ∈ pre.getLast?, b = 0x0A := by
  constructor
  · rintro (rfl | ⟨p, rfl⟩) b hb
    · cases hb
    · simpa using hb.symm
  · intro h
    rcases List.eq_nil_or_concat pre with rfl | ⟨p, b, rfl⟩
    · exact lineStart_nil
    · rw [List.concat_eq_append] at h ⊢
      obtain rfl := h b (by simp)
      exact lineStart_append_lf p

/-- Behind a line feed, the line starts of `a ++ b` are those of `b`. -/
theorem lineStart_append_iff {a b : Bytes} (ha : LineStart a) :
    LineStart (a ++ b) ↔ LineStart b := by
  rcases List.eq_nil_or_concat b with rfl | ⟨p, c, rfl⟩
  · simpa [lineStart_nil] using ha
  · rw [lineStart_iff, lineStart_iff, List.concat_eq_append, ← List.append_assoc]
    simp

/-- What a payload stream is. -/
structure PayloadStream (payload : Bytes) : Prop where
  utf8 : Utf8.Valid payload
  no_bom : ¬ [0xEF, 0xBB, 0xBF] <+: payload
  terminated : LineStart payload

theorem validatePayloadStream_eq_ok_iff {payload : Bytes} :
    validatePayloadStream payload = .ok () ↔ PayloadStream payload := by
  rw [validatePayloadStream]
  constructor
  · intro h
    split at h
    · cases h
    · next hu =>
      split at h
      · cases h
      · next hb =>
        refine ⟨Utf8.isSome_decode_iff.mp ?_, fun hp => hb (bomAtZero_iff.mpr hp), ?_⟩
        · rwa [Bool.not_eq_true, Option.isNone_eq_false_iff] at hu
        · rw [lineStart_iff]
          intro b hlast
          rw [Option.mem_def] at hlast
          simp only [hlast] at h
          by_cases hlf : b = 0x0A
          · exact hlf
          · rw [if_neg hlf] at h
            cases h
  · intro h
    rcases h with ⟨hu, hb, hl⟩
    have hu := Utf8.isSome_decode_iff.mpr hu
    rw [if_neg (by rwa [Bool.not_eq_true, Option.isNone_eq_false_iff]),
      if_neg (fun hbom => hb (bomAtZero_iff.mp hbom))]
    rcases hl with rfl | ⟨p, rfl⟩
    · rfl
    · rw [List.getLast?_concat]
      exact if_pos rfl

theorem payloadStream_nil : PayloadStream [] where
  utf8 := ⟨[], rfl⟩
  no_bom := by simp
  terminated := lineStart_nil

end Core
end YamlSigil
