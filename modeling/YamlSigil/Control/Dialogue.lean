/-
Programs in dialogue with a party that keeps state.

A `Dialogue Q A α` puts questions as an `Ask` does, but the type of an answer
depends on its question, and the party may answer from its state: from all that
was asked before.  Two programs that are equal put the same questions to every
such party, in the same order, and stop at the same one.
-/
namespace YamlSigil
namespace Control

inductive Dialogue (Q : Type) (A : Q → Type) (α : Type) where
  | done (result : α)
  | ask (question : Q) (next : A question → Dialogue Q A α)

/-- What a party with state `S` answers, and the state it is then in. -/
abbrev Party (Q : Type) (A : Q → Type) (S : Type) := (question : Q) → S → A question × S

namespace Dialogue

variable {Q : Type} {A : Q → Type} {S α β : Type}

/-- Go on with the result of a program. -/
def andThen (next : α → Dialogue Q A β) : Dialogue Q A α → Dialogue Q A β
  | done r => next r
  | ask q k => ask q fun a => (k a).andThen next

instance : Monad (Dialogue Q A) where
  pure := done
  bind p next := p.andThen next

instance : LawfulMonad (Dialogue Q A) := by
  refine LawfulMonad.mk' _ (fun p => ?_) (fun _ _ => rfl) fun p next last => ?_
  · induction p with
    | done r => rfl
    | ask q k ih => exact congrArg (ask q) (funext ih)
  · induction p with
    | done r => rfl
    | ask q k ih => exact congrArg (ask q) (funext ih)

/-- The result and the last state, when `party` answers from state `s` on. -/
def run (party : Party Q A S) : Dialogue Q A α → S → α × S
  | done r, s => (r, s)
  | ask q k, s => (k (party q s).1).run party (party q s).2

/-- The questions put, when `party` answers from state `s` on. -/
def calls (party : Party Q A S) : Dialogue Q A α → S → List Q
  | done _, _ => []
  | ask q k, s => q :: (k (party q s).1).calls party (party q s).2

/-- Put each question as one of another party, whose answers are read as answers to it. -/
def adapt {Q' : Type} {A' : Q' → Type} (f : Q → Q') (g : (q : Q) → A' (f q) → A q) :
    Dialogue Q A α → Dialogue Q' A' α
  | done r => done r
  | ask q k => ask (f q) fun a => (k (g q a)).adapt f g

variable (party : Party Q A S)

@[simp] theorem run_done (r : α) (s : S) : (done r : Dialogue Q A α).run party s = (r, s) := rfl

@[simp] theorem run_ask (q : Q) (k : A q → Dialogue Q A α) (s : S) :
    (ask q k).run party s = (k (party q s).1).run party (party q s).2 := rfl

@[simp] theorem calls_done (r : α) (s : S) : (done r : Dialogue Q A α).calls party s = [] := rfl

@[simp] theorem calls_ask (q : Q) (k : A q → Dialogue Q A α) (s : S) :
    (ask q k).calls party s = q :: (k (party q s).1).calls party (party q s).2 := rfl

/-- The second program runs from the state that the first one leaves. -/
theorem run_bind (p : Dialogue Q A α) (next : α → Dialogue Q A β) (s : S) :
    (p >>= next).run party s = (next (p.run party s).1).run party (p.run party s).2 := by
  induction p generalizing s with
  | done r => rfl
  | ask q k ih => exact ih (party q s).1 (party q s).2

theorem calls_bind (p : Dialogue Q A α) (next : α → Dialogue Q A β) (s : S) :
    (p >>= next).calls party s =
      p.calls party s ++ (next (p.run party s).1).calls party (p.run party s).2 := by
  induction p generalizing s with
  | done r => rfl
  | ask q k ih => exact congrArg (q :: ·) (ih (party q s).1 (party q s).2)

/-- What an adapted program asks, it asks of a party behind the other one. -/
theorem calls_adapt {Q' : Type} {A' : Q' → Type} (f : Q → Q') (g : (q : Q) → A' (f q) → A q)
    (party : Party Q' A' S) (p : Dialogue Q A α) (s : S) :
    (p.adapt f g).calls party s =
      (p.calls (fun q s => (g q (party (f q) s).1, (party (f q) s).2)) s).map f := by
  induction p generalizing s with
  | done r => rfl
  | ask q k ih => exact congrArg (f q :: ·) (ih (g q (party (f q) s).1) (party (f q) s).2)

/-! ## Programs that may fail -/

/-- The program succeeds with `a`, and leaves the party in state `t`. -/
def Passes {ε : Type} (party : Party Q A S) (p : ExceptT ε (Dialogue Q A) α) (s : S) (a : α)
    (t : S) : Prop :=
  p.run.run party s = (.ok a, t)

theorem passes_result_iff {ε : Type} {party : Party Q A S} {r : Except ε α} {s t : S} {a : α} :
    Passes party (ExceptT.mk (pure r)) s a t ↔ r = .ok a ∧ s = t := Prod.mk.injEq .. ▸ Iff.rfl

theorem passes_bind_iff {ε : Type} {party : Party Q A S} {p : ExceptT ε (Dialogue Q A) α}
    {f : α → ExceptT ε (Dialogue Q A) β} {s u : S} {b : β} :
    Passes party (p >>= f) s b u ↔ ∃ a t, Passes party p s a t ∧ Passes party (f a) t b u := by
  have hrun : (p >>= f).run = p.run >>= ExceptT.bindCont f := rfl
  unfold Passes
  rw [hrun, run_bind]
  constructor
  · intro h
    rcases hp : p.run.run party s with ⟨r, t⟩
    rw [hp] at h
    cases r with
    | error e => cases h
    | ok a => exact ⟨a, t, rfl, h⟩
  · rintro ⟨a, t, hp, hf⟩
    rw [hp]
    exact hf

end Dialogue

end Control
end YamlSigil
