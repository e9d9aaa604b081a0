/-
Suites of checks on a party that hands out handles.

A suite binds keys and asks the handles it got for verdicts; it stops at the first
answer that is not the expected one.  A party is oblivious if its verdicts depend
on the keys bound so far and not on the handle that is asked.  No such party
passes a suite that expects two verdicts on one question without a bind between
them.
-/
import Mathlib.Data.Fin.Tuple.Basic
import YamlSigil.Control.Dialogue

namespace YamlSigil
namespace Control

inductive HandleCall (K M H : Type) where
  | bind (key : K)
  | judge (handle : H) (question : M)
deriving Repr, DecidableEq

/-- Binding may fail, judging may not. -/
abbrev HandleCall.Reply {K M H : Type} (V : Type) : HandleCall K M H → Type
  | .bind _ => Option H
  | .judge _ _ => V

/-- Programs that hold handles of type `H`. -/
abbrev Holding (K M V H : Type) := Dialogue (HandleCall K M H) (HandleCall.Reply V)

/-- A party that hands out handles of type `H` and keeps a state of type `S`. -/
abbrev Keyholder (K M V H S : Type) := Party (HandleCall K M H) (HandleCall.Reply V) S

namespace Keyholder

variable {K M V H S : Type} (party : Keyholder K M V H S)

def bind (key : K) (s : S) : Option H × S := party (HandleCall.bind key) s

def judge (handle : H) (question : M) (s : S) : V × S := party (HandleCall.judge handle question) s

/-- The keys bound on the way to a state, each with whether that succeeded, and the
handles handed out. -/
inductive Reaches (s₀ : S) : List (K × Bool) → List H → S → Prop
  | start : Reaches s₀ [] [] s₀
  | bind {binds : List (K × Bool)} {handles : List H} {s : S} (key : K) :
      Reaches s₀ binds handles s →
      Reaches s₀ (binds ++ [(key, (party.bind key s).1.isSome)])
        (handles ++ (party.bind key s).1.toList) (party.bind key s).2
  | judge {binds : List (K × Bool)} {handles : List H} {s : S} {handle : H} (question : M) :
      Reaches s₀ binds handles s → handle ∈ handles →
      Reaches s₀ binds handles (party.judge handle question s).2

/-- Verdicts depend on the binds so far only: all handles are alike. -/
def Oblivious (s₀ : S) : Prop :=
  ∀ {binds : List (K × Bool)} {handles handles' : List H} {s s' : S} {handle handle' : H},
    party.Reaches s₀ binds handles s → party.Reaches s₀ binds handles' s' →
    handle ∈ handles → handle' ∈ handles' → ∀ question : M,
      (party.judge handle question s).1 = (party.judge handle' question s').1

end Keyholder

/-- What a check that fails with an `E` returns. -/
abbrev Checked (K M V H E : Type) := ExceptT E (Holding K M V H)

namespace Checked

variable {K M V H E : Type}

/-- What a reply to a bind leads to. -/
def bound (unbound : E) : Option H → Holding K M V H (Except E H)
  | none => .done (.error unbound)
  | some handle => .done (.ok handle)

def bindKey (unbound : E) (key : K) : Checked K M V H E H :=
  ExceptT.mk (.ask (HandleCall.bind key) (bound unbound))

def judge (handle : H) (question : M) : Checked K M V H E V :=
  ExceptT.mk (.ask (HandleCall.judge handle question) fun verdict => .done (.ok verdict))

end Checked

/-- The steps of a suite that holds `n` handles, numbered as they were bound. -/
inductive Suite (K M V : Type) : Nat → Type
  | done {n : Nat} : Suite K M V n
  | bind {n : Nat} (key : K) (rest : Suite K M V (n + 1)) : Suite K M V n
  | expect {n : Nat} (handle : Fin n) (question : M) (verdict : V) (rest : Suite K M V n) :
      Suite K M V n

/-- How the failure of a check is reported. -/
structure Grading (V E : Type) where
  unbound : E
  check : V → V → Except E Unit
  check_eq_ok_iff : ∀ {got expected : V}, check got expected = .ok () ↔ got = expected

namespace Suite

variable {K M V H S E : Type}

def program (G : Grading V E) : {n : Nat} → Suite K M V n → (Fin n → H) → Checked K M V H E Unit
  | _, done, _ => pure ()
  | _, bind key rest, handles => do
    let handle ← Checked.bindKey G.unbound key
    rest.program G (Fin.snoc handles handle)
  | _, expect i question verdict rest, handles => do
    G.check (← Checked.judge (handles i) question) verdict
    rest.program G handles

/-- Before the next bind another verdict is expected on the same question. -/
def Disputes (question : M) (verdict : V) : {n : Nat} → Suite K M V n → Prop
  | _, done => False
  | _, bind _ _ => False
  | _, expect _ question' verdict' rest =>
    (question' = question ∧ verdict' ≠ verdict) ∨ rest.Disputes question verdict

/-- Between two binds one question has two expected verdicts. -/
def Separates : {n : Nat} → Suite K M V n → Prop
  | _, done => False
  | _, bind _ rest => rest.Separates
  | _, expect _ question verdict rest => rest.Disputes question verdict ∨ rest.Separates

section
variable (G : Grading V E) (party : Keyholder K M V H S)

theorem held_snoc {n : Nat} {held : Fin n → H} {handles : List H} {handle : H}
    (hheld : ∀ i, held i ∈ handles) (i : Fin (n + 1)) :
    (Fin.snoc held handle : Fin (n + 1) → H) i ∈ handles ++ (some handle).toList := by
  cases i using Fin.lastCases with
  | last =>
    rw [Fin.snoc_last]
    exact List.mem_append_right _ (List.mem_singleton_self handle)
  | cast i =>
    rw [Fin.snoc_castSucc]
    exact List.mem_append_left _ (hheld i)

/-- The result of a suite from a state on, and the state it leaves. -/
def outcome {n : Nat} (suite : Suite K M V n) (handles : Fin n → H) (s : S) :
    Except E Unit × S :=
  (suite.program G handles).run.run party s

theorem outcome_bind {n : Nat} (key : K) (rest : Suite K M V (n + 1)) (handles : Fin n → H)
    (s : S) : (bind key rest).outcome G party handles s =
      (party.bind key s).1.elim (.error G.unbound, (party.bind key s).2) fun handle =>
        rest.outcome G party (Fin.snoc handles handle) (party.bind key s).2 := by
  have hreply : ∀ (reply : Option H) (s' : S), Dialogue.run party
      (Dialogue.andThen (ExceptT.bindCont fun handle => rest.program G (Fin.snoc handles handle))
        (Checked.bound G.unbound reply)) s' =
      reply.elim (.error G.unbound, s') fun handle =>
        rest.outcome G party (Fin.snoc handles handle) s' := by
    intro reply s'
    cases reply with
    | none => rfl
    | some handle => rfl
  exact hreply (party.bind key s).1 (party.bind key s).2

theorem outcome_expect {n : Nat} (i : Fin n) (question : M) (verdict : V) (rest : Suite K M V n)
    (handles : Fin n → H) (s : S) :
    (G.check (party.judge (handles i) question s).1 verdict = .ok () ∧
        (expect i question verdict rest).outcome G party handles s =
          rest.outcome G party handles (party.judge (handles i) question s).2) ∨
      ∃ e, G.check (party.judge (handles i) question s).1 verdict = .error e ∧
        (expect i question verdict rest).outcome G party handles s =
          (.error e, (party.judge (handles i) question s).2) := by
  have hout : (expect i question verdict rest).outcome G party handles s =
      Dialogue.run party (Dialogue.andThen (ExceptT.bindCont fun _ => rest.program G handles)
        (.done (G.check (party.judge (handles i) question s).1 verdict)))
        (party.judge (handles i) question s).2 := rfl
  rw [hout]
  cases G.check (party.judge (handles i) question s).1 verdict with
  | error e => exact .inr ⟨e, rfl, rfl⟩
  | ok u => exact .inl ⟨rfl, rfl⟩

/-! ## What oblivious parties do -/

variable {G party} {s₀ : S} {binds : List (K × Bool)} {handles : List H} {s : S}

/-- A suite leads from a state that is reached to one that is reached. -/
theorem reaches_outcome {n : Nat} (suite : Suite K M V n) {held : Fin n → H}
    (hreach : party.Reaches s₀ binds handles s) (hheld : ∀ i, held i ∈ handles) :
    ∃ binds' handles', party.Reaches s₀ binds' handles' (suite.outcome G party held s).2 := by
  induction suite generalizing binds handles s with
  | done => exact ⟨binds, handles, hreach⟩
  | bind key rest ih =>
    rw [outcome_bind]
    have hnext := hreach.bind key
    cases hreply : (party.bind key s).1 with
    | none => exact ⟨_, _, hnext⟩
    | some handle =>
      refine ih hnext fun i => ?_
      rw [hreply]
      exact held_snoc hheld i
  | expect i question verdict rest ih =>
    have hnext := hreach.judge question (hheld i)
    rcases outcome_expect G party i question verdict rest held s with ⟨-, h⟩ | ⟨e, -, h⟩
    · rw [h]
      exact ih hnext hheld
    · rw [h]
      exact ⟨_, _, hnext⟩

/-- A suite that is passed found another verdict where it expected another one. -/
theorem exists_verdict_of_disputes {n : Nat} {suite : Suite K M V n} {held : Fin n → H}
    {question : M} {verdict : V} (hdisputes : suite.Disputes question verdict)
    (hreach : party.Reaches s₀ binds handles s) (hheld : ∀ i, held i ∈ handles)
    (hpass : (suite.outcome G party held s).1 = .ok ()) :
    ∃ s' handle, party.Reaches s₀ binds handles s' ∧ handle ∈ handles ∧
      (party.judge handle question s').1 ≠ verdict := by
  induction suite generalizing s with
  | done => cases hdisputes
  | bind key rest ih => cases hdisputes
  | expect i question' verdict' rest ih =>
    rcases outcome_expect G party i question' verdict' rest held s with ⟨hcheck, h⟩ | ⟨e, -, h⟩
    · rw [h] at hpass
      have hgot := G.check_eq_ok_iff.mp hcheck
      rcases hdisputes with ⟨hquestion, hverdict⟩ | hrest
      · subst hquestion
        exact ⟨s, held i, hreach, hheld i, fun hv => hverdict (hgot.symm.trans hv)⟩
      · exact ih hrest (hreach.judge question' (hheld i)) hheld hpass
    · rw [h] at hpass
      cases hpass

/-- No oblivious party passes a suite that separates its handles. -/
theorem not_passed_of_separates {n : Nat} {suite : Suite K M V n} {held : Fin n → H}
    (hsep : suite.Separates) (hobl : party.Oblivious s₀)
    (hreach : party.Reaches s₀ binds handles s) (hheld : ∀ i, held i ∈ handles) :
    (suite.outcome G party held s).1 ≠ .ok () := by
  induction suite generalizing binds handles s with
  | done => cases hsep
  | bind key rest ih =>
    rw [outcome_bind]
    cases hreply : (party.bind key s).1 with
    | none =>
      intro h
      cases h
    | some handle =>
      refine ih hsep (hreach.bind key) fun i => ?_
      rw [hreply]
      exact held_snoc hheld i
  | expect i question verdict rest ih =>
    have hnext := hreach.judge question (hheld i)
    rcases outcome_expect G party i question verdict rest held s with ⟨hcheck, h⟩ | ⟨e, -, h⟩
    · rw [h]
      rcases hsep with hdisputes | hrest
      · intro hpass
        obtain ⟨s', handle, hreach', hmem, hother⟩ :=
          exists_verdict_of_disputes hdisputes hnext hheld hpass
        apply hother
        rw [← G.check_eq_ok_iff.mp hcheck]
        exact hobl hreach' hreach hmem (hheld i) question
      · exact ih hrest hnext hheld
    · rw [h]
      intro hpass
      cases hpass

end

end Suite
end Control
end YamlSigil
