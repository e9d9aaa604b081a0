/-
Programs that may be cut off, and whose writes may fail.

A world says what may come back for a question and what state it leaves.  A run of a
program in a world may be cut off at every question.  The rules here prove, along a
program, what each of its steps does to the state and what holds when it returns: of a
program cut off only the first is left.
-/
import Mathlib.Logic.Relation
import YamlSigil.Control.Dialogue

namespace YamlSigil
namespace Control

/-- What may come back for a question in a state, and the state that this leaves. -/
abbrev World (Q : Type) (A : Q → Type) (S : Type) := (question : Q) → S → A question → S → Prop

/-- The party answers.  When it may fail, a question that writes takes effect or not, and
is answered or fails, one whatever the other is. -/
def Party.world {Q : Type} {A : Q → Type} {S : Type} (party : Party Q A S) (writes : Q → Bool)
    (fails : (q : Q) → A q → Prop) (mayFail : Prop) : World Q A S :=
  fun q s a s' => (a, s') = party q s ∨
    (mayFail ∧ writes q = true ∧ (s' = s ∨ s' = (party q s).2) ∧
      (a = (party q s).1 ∨ fails q a))

/-- A state, and what was answered so far, each question with the state that it left. -/
structure Watched (Q S : Type) where
  now : S
  answered : List (Q × S)

/-- The world, with all that is answered in it kept. -/
def World.watched {Q : Type} {A : Q → Type} {S : Type} (world : World Q A S) :
    World Q A (Watched Q S) :=
  fun q s a t => world q s.now a t.now ∧ t.answered = s.answered ++ [(q, t.now)]

namespace Dialogue

variable {Q : Type} {A : Q → Type} {S α β : Type}

/-! ## Steps that keep a relation -/

/-- Each step is one of `guarantee`, and the results satisfy `post`. -/
def Keeps (world : World Q A S) (guarantee : S → S → Prop) (post : α → S → Prop) :
    Dialogue Q A α → S → Prop
  | done r, s => post r s
  | ask q k, s => ∀ a s', world q s a s' → guarantee s s' ∧
      (k a).Keeps world guarantee post s'

section
variable {world : World Q A S} {guarantee : S → S → Prop} {p : Dialogue Q A α} {s t : S}

theorem Keeps.mono {post post' : α → S → Prop} (h : p.Keeps world guarantee post s)
    (hpost : ∀ r s, post r s → post' r s) : p.Keeps world guarantee post' s := by
  induction p generalizing s with
  | done r => exact hpost r s h
  | ask q k ih => exact fun a s' ha => ⟨(h a s' ha).1, ih a (h a s' ha).2⟩

theorem keeps_bind {post : β → S → Prop} {next : α → Dialogue Q A β} :
    (p >>= next).Keeps world guarantee post s ↔
      p.Keeps world guarantee (fun r s => (next r).Keeps world guarantee post s) s := by
  induction p generalizing s with
  | done r => exact Iff.rfl
  | ask q k ih =>
    constructor
    · intro h a s' ha
      exact ⟨(h a s' ha).1, (ih a).mp (h a s' ha).2⟩
    · intro h a s' ha
      exact ⟨(h a s' ha).1, (ih a).mpr (h a s' ha).2⟩

/-- What the steps add up to holds where the program returns. -/
theorem Keeps.steps {post : α → S → Prop} (h : p.Keeps world guarantee post s) :
    p.Keeps world guarantee
      (fun r t => post r t ∧ Relation.ReflTransGen guarantee s t) s := by
  induction p generalizing s with
  | done r => exact ⟨h, .refl⟩
  | ask q k ih =>
    intro a s' ha
    obtain ⟨hstep, hrest⟩ := h a s' ha
    exact ⟨hstep, (ih a hrest).mono fun r t hr => ⟨hr.1, .head hstep hr.2⟩⟩

/-- A party that answers runs the program to a result. -/
theorem Keeps.run {party : Party Q A S} {writes : Q → Bool} {fails : (q : Q) → A q → Prop}
    {mayFail : Prop} {post : α → S → Prop}
    (h : p.Keeps (party.world writes fails mayFail) guarantee post s) :
    post (p.run party s).1 (p.run party s).2 := by
  induction p generalizing s with
  | done r => exact h
  | ask q k ih => exact ih (party q s).1 (h (party q s).1 (party q s).2 (.inl rfl)).2

end

/-! ## Restarts -/

/-- A program under way, and the state. -/
structure Config (Q : Type) (A : Q → Type) (S α : Type) where
  program : Dialogue Q A α
  state : S

/-- One question of the program under way, or the start of another program: the one
before has returned, or is cut off. -/
inductive Moves (world : World Q A S) (programs : Dialogue Q A α → Prop) :
    Config Q A S α → Config Q A S α → Prop
  | work {q : Q} {k : A q → Dialogue Q A α} {s s' : S} {a : A q} (h : world q s a s') :
      Moves world programs ⟨ask q k, s⟩ ⟨k a, s'⟩
  | start {p p' : Dialogue Q A α} {s : S} (h : programs p') :
      Moves world programs ⟨p, s⟩ ⟨p', s⟩

theorem moves_start (world : World Q A S) {programs : Dialogue Q A α → Prop}
    (c : Config Q A S α) {p : Dialogue Q A α} (h : programs p) :
    Moves world programs c ⟨p, c.state⟩ := .start h

/-- What is left of a program when a party has answered `n` of its questions. -/
def after (party : Party Q A S) : Nat → Dialogue Q A α → S → Config Q A S α
  | 0, p, s => ⟨p, s⟩
  | _ + 1, done r, s => ⟨done r, s⟩
  | n + 1, ask q k, s => (k (party q s).1).after party n (party q s).2

theorem moves_after (party : Party Q A S) (writes : Q → Bool) (fails : (q : Q) → A q → Prop)
    (mayFail : Prop) (programs : Dialogue Q A α → Prop) (n : Nat) (p : Dialogue Q A α) (s : S) :
    Relation.ReflTransGen (Moves (party.world writes fails mayFail) programs) ⟨p, s⟩
      (p.after party n s) := by
  induction n generalizing p s with
  | zero => exact .refl
  | succ n ih =>
    cases p with
    | done r => exact .refl
    | ask q k => exact .head (.work (.inl rfl)) (ih (k (party q s).1) (party q s).2)

/-- Where every program keeps the guarantee from every state that satisfies the invariant,
and the guarantee the invariant, a restarted system keeps both. -/
theorem Moves.keeps {world : World Q A S} {programs : Dialogue Q A α → Prop} {inv : S → Prop}
    {guarantee : S → S → Prop} (hguarantee : ∀ s s', guarantee s s' → inv s')
    (hprograms : ∀ p, programs p → ∀ s, inv s →
      p.Keeps world guarantee (fun _ _ => True) s)
    {c d : Config Q A S α} (moves : Relation.ReflTransGen (Moves world programs) c d)
    (hinv : inv c.state) (hkeeps : c.program.Keeps world guarantee (fun _ _ => True) c.state) :
    inv d.state ∧ d.program.Keeps world guarantee (fun _ _ => True) d.state ∧
      Relation.ReflTransGen guarantee c.state d.state := by
  induction moves with
  | refl => exact ⟨hinv, hkeeps, .refl⟩
  | tail moves last ih =>
    obtain ⟨ihinv, ihkeeps, ihsteps⟩ := ih
    cases last with
    | work h =>
      obtain ⟨hstep, hrest⟩ := ihkeeps _ _ h
      exact ⟨hguarantee _ _ hstep, hrest, ihsteps.tail hstep⟩
    | start h => exact ⟨ihinv, hprograms _ h _ ihinv, ihsteps⟩

/-! ## Programs with errors -/

/-- The condition `ok` on a value, and `err` on an error. -/
def Outcome {ε : Type} (ok : α → S → Prop) (err : S → Prop) : Except ε α → S → Prop
  | .ok r, s => ok r s
  | .error _, s => err s

/-- Each step is one of `guarantee`, the values returned satisfy `ok`, and the states in
which the program fails satisfy `err`. -/
def Tries {ε : Type} (world : World Q A S) (guarantee : S → S → Prop) (ok : α → S → Prop)
    (err : S → Prop) (p : ExceptT ε (Dialogue Q A) α) (s : S) : Prop :=
  Dialogue.Keeps world guarantee (Outcome ok err) p.run s

section
variable {ε : Type} {world : World Q A S} {guarantee : S → S → Prop} {err : S → Prop} {s : S}

theorem Tries.mono {ok ok' : α → S → Prop} {p : ExceptT ε (Dialogue Q A) α}
    (h : Tries world guarantee ok err p s) (hok : ∀ r s, ok r s → ok' r s) :
    Tries world guarantee ok' err p s := by
  refine Keeps.mono h fun r s hr => ?_
  cases r with
  | ok r => exact hok r s hr
  | error e => exact hr

theorem tries_pure {ok : α → S → Prop} {r : α} (h : ok r s) :
    Tries world guarantee ok err (pure r : ExceptT ε (Dialogue Q A) α) s := h

theorem tries_throw {ok : α → S → Prop} {e : ε} (h : err s) :
    Tries world guarantee ok err (throw e : ExceptT ε (Dialogue Q A) α) s := h

theorem Tries.bind {ok : α → S → Prop} {ok' : β → S → Prop} {p : ExceptT ε (Dialogue Q A) α}
    {next : α → ExceptT ε (Dialogue Q A) β} (h : Tries world guarantee ok err p s)
    (hnext : ∀ r t, ok r t → Relation.ReflTransGen guarantee s t →
      Tries world guarantee ok' err (next r) t) :
    Tries world guarantee ok' err (p >>= next) s := by
  refine keeps_bind.mpr (Keeps.mono (Keeps.steps h) fun r t hr => ?_)
  cases r with
  | ok r => exact hnext r t hr.1 hr.2
  | error e => exact hr.1

/-- Where no state of failure is possible, a party that answers gets a value. -/
theorem Tries.run {party : Party Q A S} {writes : Q → Bool} {fails : (q : Q) → A q → Prop}
    {mayFail : Prop} {ok : α → S → Prop} {p : ExceptT ε (Dialogue Q A) α}
    (h : Tries (party.world writes fails mayFail) guarantee ok err p s) (herr : ∀ t, ¬err t) :
    ∃ r t, Dialogue.run party p.run s = (.ok r, t) ∧ ok r t := by
  have hrun := Keeps.run h
  cases hresult : (Dialogue.run party p.run s).1 with
  | ok r =>
    rw [hresult] at hrun
    exact ⟨r, (Dialogue.run party p.run s).2, Prod.ext hresult rfl, hrun⟩
  | error e =>
    rw [hresult] at hrun
    exact absurd hrun (herr _)

/-- The result of a program as a value. -/
def attempt (p : ExceptT ε (Dialogue Q A) α) : ExceptT ε (Dialogue Q A) (Except ε α) :=
  ExceptT.mk (p.run >>= fun r => done (.ok r))

theorem Tries.attempt {ok : α → S → Prop} {err' : S → Prop} {p : ExceptT ε (Dialogue Q A) α}
    (h : Tries world guarantee ok err p s) :
    Tries world guarantee (Outcome ok err) err' (Dialogue.attempt p) s :=
  keeps_bind.mpr (Keeps.mono h fun _ _ hr => hr)

end

end Dialogue

end Control
end YamlSigil
