/-
Public keys of a signer, wherever they come from.

Keys are listed by the agent, on an account or by the caller.  The first of the keys that
are equal is kept, so that a candidate is one key.
-/
import YamlSigil.Core.SignatureKeys
import YamlSigil.Format.SemVer
import YamlSigil.Verification.Keys

namespace YamlSigil
namespace GithubKeys

open YamlSigil.Core Verification

/-! ## Lists without repeated keys -/

section
variable {α β : Type} [DecidableEq β] (key : α → β)

/-- `a` behind the list, unless its key is in it. -/
def pushNew (known : List α) (a : α) : List α :=
  if known.any fun b => key b = key a then known else known ++ [a]

def pushAll (known l : List α) : List α := l.foldl (pushNew key) known

variable {key}

@[simp] theorem pushAll_nil (known : List α) : pushAll key known [] = known := rfl

@[simp] theorem pushAll_cons (known : List α) (a : α) (l : List α) :
    pushAll key known (a :: l) = pushAll key (pushNew key known a) l := rfl

theorem find?_pushNew (known : List α) (a : α) (k : β) :
    (pushNew key known a).find? (fun b => decide (key b = k)) =
      (known ++ [a]).find? fun b => decide (key b = k) := by
  unfold pushNew
  by_cases hknown : (known.any fun b => decide (key b = key a)) = true
  · rw [if_pos hknown, List.find?_append]
    by_cases hk : key a = k
    · subst hk
      have hsome : (known.find? fun b => decide (key b = key a)).isSome := by
        rw [List.find?_isSome]
        exact List.any_eq_true.mp hknown
      obtain ⟨b, hb⟩ := Option.isSome_iff_exists.mp hsome
      rw [hb]
      rfl
    · simp [hk]
  · rw [if_neg hknown]

/-- The first of the elements with a key is found, and none is found that is not there. -/
theorem find?_pushAll (known l : List α) (k : β) :
    (pushAll key known l).find? (fun b => decide (key b = k)) =
      (known ++ l).find? fun b => decide (key b = k) := by
  induction l generalizing known with
  | nil => rw [pushAll_nil, List.append_nil]
  | cons a l ih =>
    rw [pushAll_cons, ih, List.find?_append, find?_pushNew, ← List.find?_append,
      List.append_assoc, List.singleton_append]

/-- A key that was there or is added is there. -/
theorem exists_mem_pushAll {known l : List α} {a : α} (h : a ∈ known ++ l) :
    ∃ b ∈ pushAll key known l, key b = key a := by
  have hsome : ((known ++ l).find? fun b => decide (key b = key a)).isSome = true :=
    List.find?_isSome.mpr ⟨a, h, decide_eq_true rfl⟩
  rw [← find?_pushAll] at hsome
  obtain ⟨b, hb⟩ := Option.isSome_iff_exists.mp hsome
  have hkey := List.find?_some (p := fun b => decide (key b = key a)) hb
  exact ⟨b, List.mem_of_find?_eq_some hb, of_decide_eq_true hkey⟩

theorem nodup_pushNew {known : List α} (h : (known.map key).Nodup) (a : α) :
    ((pushNew key known a).map key).Nodup := by
  unfold pushNew
  by_cases hknown : (known.any fun b => decide (key b = key a)) = true
  · rwa [if_pos hknown]
  · rw [if_neg hknown, List.map_append, List.nodup_append]
    refine ⟨h, by simp, fun k hk k' hk' heq => hknown ?_⟩
    obtain ⟨b, hb, rfl⟩ := List.mem_map.mp hk
    simp only [List.map_cons, List.map_nil, List.mem_singleton] at hk'
    exact List.any_eq_true.mpr ⟨b, hb, decide_eq_true (heq.trans hk')⟩

theorem nodup_pushAll {known : List α} (h : (known.map key).Nodup) (l : List α) :
    ((pushAll key known l).map key).Nodup := by
  induction l generalizing known with
  | nil => exact h
  | cons a l ih => exact ih (nodup_pushNew h a)

theorem mem_pushAll {known l : List α} {a : α} (h : a ∈ pushAll key known l) :
    a ∈ known ∨ a ∈ l := by
  induction l generalizing known with
  | nil => exact .inl h
  | cons b l ih =>
    rcases ih h with hmem | hmem
    · unfold pushNew at hmem
      split_ifs at hmem
      · exact .inl hmem
      · rcases List.mem_append.mp hmem with hmem | hmem
        · exact .inl hmem
        · exact .inr (List.mem_cons.mpr (.inl (List.mem_singleton.mp hmem)))
    · exact .inr (List.mem_cons_of_mem _ hmem)

end

/-! ## Candidates -/

/-- `anyhow::Error`: what failed, below the contexts that were added. -/
inductive KeyError where
  | invocation (e : InvocationError)
  | resource (e : ArtifactResourceError)
  | message (text : Text)
  | context (text : Text) (cause : KeyError)
deriving Repr, DecidableEq

/-- The `ssh_key` library: public keys, their forms and their fingerprints. -/
structure Ssh where
  PublicKey : Type
  Fingerprint : Type
  ed25519 : PublicKey → Option Bytes
  fingerprint : PublicKey → Fingerprint
  fromOpenssh : Text → Except Text PublicKey
  [decEq : DecidableEq Fingerprint]

instance (S : Ssh) : DecidableEq S.Fingerprint := S.decEq

/-- `source` is set by discovery only. -/
structure Candidate (C : KeyCrypto) (S : Ssh) where
  key : C.Ed25519VerifyingKey
  fingerprint : S.Fingerprint
  source : Option Text

section
variable {C : KeyCrypto} {S : Ssh}

namespace Candidate

/-- Keys are compared by their octets. -/
def octets (c : Candidate C S) : Bytes := C.ed25519AsBytes c.key

/-- Certificates and keys of other forms are no candidates. -/
def fromPublic (C : KeyCrypto) (S : Ssh) (key : S.PublicKey) :
    Except KeyError (Option (Candidate C S)) :=
  match S.ed25519 key with
  | none => .ok none
  | some bytes =>
    match resolveEd25519VerifyingKey C bytes with
    | .error e => .error (.invocation e)
    | .ok vk => .ok (some ⟨vk, S.fingerprint key, none⟩)

end Candidate

def filterFingerprint (candidates : List (Candidate C S)) (fingerprint : Option S.Fingerprint) :
    Except KeyError (List (Candidate C S)) :=
  let kept := candidates.filter fun c => fingerprint.all fun value => c.fingerprint = value
  if kept = [] then
    .error (.message "no Ed25519 key matches the selected signer and fingerprint".toList)
  else .ok kept

/-- `anyhow::Context::with_context` -/
def withContext {α : Type} (text : Text) : Except KeyError α → Except KeyError α
  | .ok a => .ok a
  | .error e => .error (.context text e)

/-- The candidate of a line: blank lines, comments and other keys have none. -/
def parseLine (C : KeyCrypto) (S : Ssh) (index : Nat) (line : Text) :
    Except KeyError (Option (Candidate C S)) :=
  let line := trim line
  if line = [] ∨ line.head? = some '#' then .ok none
  else
    match S.fromOpenssh line with
    | .error e =>
      .error (.message ("malformed OpenSSH key on line ".toList ++
        Format.SemVer.digits (index + 1) ++ ": ".toList ++ e))
    | .ok key =>
      withContext ("inadmissible Ed25519 key on line ".toList ++ Format.SemVer.digits (index + 1))
        (Candidate.fromPublic C S key)

def parseLines (C : KeyCrypto) (S : Ssh) (known : List (Candidate C S)) :
    Nat → List Text → Except KeyError (List (Candidate C S))
  | _, [] => .ok known
  | index, line :: rest =>
    match parseLine C S index line with
    | .error e => .error e
    | .ok none => parseLines C S known (index + 1) rest
    | .ok (some c) => parseLines C S (pushNew Candidate.octets known c) (index + 1) rest

def parseCandidates (C : KeyCrypto) (S : Ssh) (text : Text) :
    Except KeyError (List (Candidate C S)) := parseLines C S [] 0 (strLines text)

def parseExport (C : KeyCrypto) (S : Ssh) (text : Text) :
    Except KeyError (List (Candidate C S)) := do
  let candidates ← parseCandidates C S text
  if candidates = [] then .error (.message "no supported Ed25519 public keys".toList)
  else .ok candidates

/-! ## What is parsed -/

/-- The lines from `index` on are read without an error, and hold these candidates. -/
inductive LinesHold (C : KeyCrypto) (S : Ssh) : Nat → List Text → List (Candidate C S) → Prop
  | nil (index : Nat) : LinesHold C S index [] []
  | skip {index : Nat} {line : Text} {rest : List Text} {cs : List (Candidate C S)}
      (hline : parseLine C S index line = .ok none) (hrest : LinesHold C S (index + 1) rest cs) :
      LinesHold C S index (line :: rest) cs
  | key {index : Nat} {line : Text} {rest : List Text} {c : Candidate C S}
      {cs : List (Candidate C S)} (hline : parseLine C S index line = .ok (some c))
      (hrest : LinesHold C S (index + 1) rest cs) : LinesHold C S index (line :: rest) (c :: cs)

theorem parseLines_eq_ok_iff {known result : List (Candidate C S)} {index : Nat}
    {lines : List Text} :
    parseLines C S known index lines = .ok result ↔
      ∃ cs, LinesHold C S index lines cs ∧ result = pushAll Candidate.octets known cs := by
  constructor
  · intro h
    induction lines generalizing known index with
    | nil =>
      cases h
      exact ⟨[], .nil index, rfl⟩
    | cons line rest ih =>
      unfold parseLines at h
      cases hline : parseLine C S index line with
      | error e =>
        rw [hline] at h
        cases h
      | ok found =>
        rw [hline] at h
        cases found with
        | none =>
          obtain ⟨cs, hcs, heq⟩ := ih h
          exact ⟨cs, .skip hline hcs, heq⟩
        | some c =>
          obtain ⟨cs, hcs, heq⟩ := ih h
          exact ⟨c :: cs, .key hline hcs, heq⟩
  · rintro ⟨cs, hcs, rfl⟩
    induction hcs generalizing known with
    | nil => rfl
    | skip hline _ ih =>
      unfold parseLines
      rw [hline]
      exact ih
    | key hline _ ih =>
      unfold parseLines
      rw [hline]
      exact ih

theorem nodup_of_parseCandidates {text : Text} {cs : List (Candidate C S)}
    (h : parseCandidates C S text = .ok cs) : (cs.map Candidate.octets).Nodup := by
  obtain ⟨found, -, rfl⟩ := parseLines_eq_ok_iff.mp h
  have hnil : (([] : List (Candidate C S)).map Candidate.octets).Nodup := List.nodup_nil
  exact nodup_pushAll hnil _

end

end GithubKeys
end YamlSigil
