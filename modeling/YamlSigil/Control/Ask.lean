/-
Programs that ask for answers.

An `Ask Q A α` puts questions of type `Q` to a party outside of it and goes on
with the answers.  A run fixes the party, `calls` lists the questions that the
run puts to it.  A callback, a trait object and an awaited operation are all
such parties: two programs that are equal behave alike against each of them.
-/
namespace YamlSigil
namespace Control

inductive Ask (Q A α : Type) where
  | done (result : α)
  | ask (question : Q) (next : A → Ask Q A α)

namespace Ask

variable {P Q A B α β : Type}

/-- Go on with the result of a program. -/
def andThen (next : α → Ask Q A β) : Ask Q A α → Ask Q A β
  | done r => next r
  | ask q k => ask q fun a => (k a).andThen next

/-- Put one question and return its answer. -/
def once (q : Q) : Ask Q A A := ask q done

/-- The result, when `answer` answers. -/
def run (answer : Q → A) : Ask Q A α → α
  | done r => r
  | ask q k => (k (answer q)).run answer

/-- The questions put, when `answer` answers. -/
def calls (answer : Q → A) : Ask Q A α → List Q
  | done _ => []
  | ask q k => q :: (k (answer q)).calls answer

/-- The program for a party whose answers are translated first. -/
def adapt (translate : B → A) : Ask Q A α → Ask Q B α
  | done r => done r
  | ask q k => ask q fun b => (k (translate b)).adapt translate

/-- The program for a party behind an interpreter, which turns each question into
one of its own and reads the answer for the question it was given. -/
def through (question : Q → P) (translate : Q → B → A) : Ask Q A α → Ask P B α
  | done r => done r
  | ask q k => ask (question q) fun b => (k (translate q b)).through question translate

@[simp] theorem andThen_done (r : α) (next : α → Ask Q A β) :
    (done r : Ask Q A α).andThen next = next r := rfl

@[simp] theorem andThen_ask (q : Q) (k : A → Ask Q A α) (next : α → Ask Q A β) :
    (ask q k).andThen next = ask q fun a => (k a).andThen next := rfl

@[simp] theorem run_done (answer : Q → A) (r : α) : (done r).run answer = r := rfl

@[simp] theorem run_ask (answer : Q → A) (q : Q) (k : A → Ask Q A α) :
    (ask q k).run answer = (k (answer q)).run answer := rfl

@[simp] theorem calls_done (answer : Q → A) (r : α) : (done r).calls answer = [] := rfl

@[simp] theorem calls_ask (answer : Q → A) (q : Q) (k : A → Ask Q A α) :
    (ask q k).calls answer = q :: (k (answer q)).calls answer := rfl

@[simp] theorem adapt_done (translate : B → A) (r : α) :
    (done r : Ask Q A α).adapt translate = done r := rfl

@[simp] theorem adapt_ask (translate : B → A) (q : Q) (k : A → Ask Q A α) :
    (ask q k).adapt translate = ask q fun b => (k (translate b)).adapt translate := rfl

@[simp] theorem through_done (question : Q → P) (translate : Q → B → A) (r : α) :
    (done r : Ask Q A α).through question translate = done r := rfl

@[simp] theorem through_ask (question : Q → P) (translate : Q → B → A) (q : Q)
    (k : A → Ask Q A α) : (ask q k).through question translate =
      ask (question q) fun b => (k (translate q b)).through question translate := rfl

theorem run_andThen (answer : Q → A) (p : Ask Q A α) (next : α → Ask Q A β) :
    (p.andThen next).run answer = (next (p.run answer)).run answer := by
  induction p with
  | done r => rfl
  | ask q k ih => exact ih (answer q)

/-- The adapted program runs as the program does against the translated party. -/
theorem run_adapt (translate : B → A) (answer : Q → B) (p : Ask Q A α) :
    (p.adapt translate).run answer = p.run fun q => translate (answer q) := by
  induction p with
  | done r => rfl
  | ask q k ih => exact ih (translate (answer q))

theorem adapt_andThen (translate : B → A) (p : Ask Q A α) (next : α → Ask Q A β) :
    (p.andThen next).adapt translate =
      (p.adapt translate).andThen fun r => (next r).adapt translate := by
  induction p with
  | done r => rfl
  | ask q k ih =>
    rw [andThen_ask, adapt_ask, adapt_ask, andThen_ask]
    congr 1
    funext b
    exact ih (translate b)

/-- Behind an interpreter a program runs as it does against the party that the
interpreter makes of the other one. -/
theorem run_through (question : Q → P) (translate : Q → B → A) (answer : P → B) (p : Ask Q A α) :
    (p.through question translate).run answer =
      p.run fun q => translate q (answer (question q)) := by
  induction p with
  | done r => rfl
  | ask q k ih => exact ih (translate q (answer (question q)))

theorem calls_through (question : Q → P) (translate : Q → B → A) (answer : P → B)
    (p : Ask Q A α) : (p.through question translate).calls answer =
      (p.calls fun q => translate q (answer (question q))).map question := by
  induction p with
  | done r => rfl
  | ask q k ih => exact congrArg (question q :: ·) (ih (translate q (answer (question q))))

theorem adapt_through {D : Type} (question : Q → P) (translate : Q → B → A) (adapter : D → B)
    (p : Ask Q A α) : (p.through question translate).adapt adapter =
      p.through question fun q d => translate q (adapter d) := by
  induction p with
  | done r => rfl
  | ask q k ih =>
    rw [through_ask, adapt_ask, through_ask]
    congr 1
    funext d
    exact ih (translate q (adapter d))

/-! ## What every run returns -/

/-- Whatever is answered, the result satisfies `P`. -/
def Returns (P : α → Prop) : Ask Q A α → Prop
  | done r => P r
  | ask _ k => ∀ a, (k a).Returns P

@[simp] theorem returns_done {P : α → Prop} {r : α} : (done r : Ask Q A α).Returns P ↔ P r :=
  Iff.rfl

@[simp] theorem returns_ask {P : α → Prop} {q : Q} {k : A → Ask Q A α} :
    (ask q k).Returns P ↔ ∀ a, (k a).Returns P := Iff.rfl

theorem Returns.mono {P P' : α → Prop} {p : Ask Q A α} (h : p.Returns P) (hP : ∀ r, P r → P' r) :
    p.Returns P' := by
  induction p with
  | done r => exact hP r h
  | ask q k ih => exact fun a => ih a (h a)

theorem returns_of_forall {P : α → Prop} (hP : ∀ r, P r) (p : Ask Q A α) : p.Returns P := by
  induction p with
  | done r => exact hP r
  | ask q k ih => exact ih

theorem returns_andThen {P : β → Prop} {p : Ask Q A α} {next : α → Ask Q A β} :
    (p.andThen next).Returns P ↔ p.Returns fun r => (next r).Returns P := by
  induction p with
  | done r => exact Iff.rfl
  | ask q k ih => exact forall_congr' ih

theorem Returns.adapt {P : α → Prop} {p : Ask Q A α} (h : p.Returns P) (translate : B → A) :
    (p.adapt translate).Returns P := by
  induction p with
  | done r => exact h
  | ask q k ih => exact fun b => ih (translate b) (h (translate b))

end Ask

end Control
end YamlSigil
