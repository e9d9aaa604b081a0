/-
Computations on machine integers, with every way to fault.

A computation comes to a value, refuses its input or faults.  The operations fault where
a machine with overflow checks does.  A loop is given a number of passes, and it is a
fault to need more: a loop that does not fault ends.
-/
import Mathlib.Algebra.Ring.Nat
import Mathlib.Logic.Relation

namespace YamlSigil
namespace Control

/-- What a computation comes to. -/
inductive Outcome (ε α : Type) where
  | value (a : α)
  | refused
  | fault (e : ε)
deriving Repr, DecidableEq

/-- What a pass through the body of a loop comes to. -/
inductive Pass (σ β : Type) where
  | again (s : σ)
  | leave (b : β)
deriving Repr, DecidableEq

namespace Outcome

variable {ε α β σ : Type}

protected def bind : Outcome ε α → (α → Outcome ε β) → Outcome ε β
  | value a, f => f a
  | refused, _ => refused
  | fault e, _ => fault e

instance : Monad (Outcome ε) where
  pure := value
  bind := Outcome.bind

@[simp] theorem value_bind (a : α) (f : α → Outcome ε β) : (value a >>= f) = f a := rfl

@[simp] theorem refused_bind (f : α → Outcome ε β) : (refused >>= f) = refused := rfl

@[simp] theorem fault_bind (e : ε) (f : α → Outcome ε β) : (fault e >>= f) = fault e := rfl

/-- A missing value is a refusal. -/
def ofOption : Option α → Outcome ε α
  | some a => value a
  | none => refused

@[simp] theorem ofOption_some (a : α) : (ofOption (some a) : Outcome ε α) = value a := rfl

@[simp] theorem ofOption_none : (ofOption none : Outcome ε α) = refused := rfl

theorem ofOption_bind (o : Option α) (f : α → Option β) :
    (ofOption (o.bind f) : Outcome ε β) = ofOption o >>= fun a => ofOption (f a) := by
  cases o <;> rfl

/-- The value to go on with when a computation refuses. -/
def recover (d : α) : Outcome ε α → Outcome ε α
  | value a => value a
  | refused => value d
  | fault e => fault e

/-! ## Operations -/

def add (e : ε) (bits a b : Nat) : Outcome ε Nat :=
  if a + b < 2 ^ bits then value (a + b) else fault e

/-- An addition that tells its caller about an overflow. -/
def checkedAdd (bits a b : Nat) : Outcome ε Nat :=
  if a + b < 2 ^ bits then value (a + b) else refused

def increment (e : ε) (n : UInt32) : Outcome ε UInt32 :=
  if n.toNat + 1 < 2 ^ 32 then value (n + 1) else fault e

def shiftLeft (e : ε) (x : UInt64) (n : Nat) : Outcome ε UInt64 :=
  if n < 64 then value (x <<< UInt64.ofNat n) else fault e

def get (e : ε) (l : List α) (i : Nat) : Outcome ε α :=
  if h : i < l.length then value (l.get ⟨i, h⟩) else fault e

def slice (e : ε) (l : List α) (start stop : Nat) : Outcome ε (List α) :=
  if start ≤ stop ∧ stop ≤ l.length then value ((l.take stop).drop start) else fault e

theorem add_of_lt {bits a b : Nat} (e : ε) (h : a + b < 2 ^ bits) :
    add e bits a b = value (a + b) := if_pos h

theorem checkedAdd_of_lt {bits a b : Nat} (h : a + b < 2 ^ bits) :
    (checkedAdd bits a b : Outcome ε Nat) = value (a + b) := if_pos h

theorem increment_of_lt {n : UInt32} (e : ε) (h : n.toNat + 1 < 2 ^ 32) :
    increment e n = value (n + 1) := if_pos h

theorem increment_of_not_lt {n : UInt32} (e : ε) (h : ¬ n.toNat + 1 < 2 ^ 32) :
    increment e n = fault e := if_neg h

theorem shiftLeft_of_lt {n : Nat} (e : ε) (x : UInt64) (h : n < 64) :
    shiftLeft e x n = value (x <<< UInt64.ofNat n) := if_pos h

theorem get_of_lt {l : List α} {i : Nat} (e : ε) (h : i < l.length) :
    get e l i = value (l.get ⟨i, h⟩) := dif_pos h

theorem slice_of_le {l : List α} {start stop : Nat} (e : ε) (h : start ≤ stop)
    (hl : stop ≤ l.length) : slice e l start stop = value ((l.take stop).drop start) :=
  if_pos ⟨h, hl⟩

/-! ## Loops -/

/-- What is left to do behind a pass, when `f` does the rest. -/
def next (f : σ → Outcome ε β) : Pass σ β → Outcome ε β
  | .again s => f s
  | .leave b => value b

/-- At most `n` passes; `e` when they are not enough. -/
def loop (e : ε) (body : σ → Outcome ε (Pass σ β)) : Nat → σ → Outcome ε β
  | 0, _ => fault e
  | n + 1, s => body s >>= next (loop e body n)

/-- One pass goes from `s` to `s'`. -/
def Steps (body : σ → Outcome ε (Pass σ β)) (s s' : σ) : Prop := body s = value (.again s')

/-- Passes from `s` on reach `s'`. -/
def Reaches (body : σ → Outcome ε (Pass σ β)) : σ → σ → Prop :=
  Relation.ReflTransGen (Steps body)

section
variable {body : σ → Outcome ε (Pass σ β)} {I : σ → Prop}

theorem Reaches.keeps {s s' : σ} (h : Reaches body s s')
    (step : ∀ s s', I s → Steps body s s' → I s') (hs : I s) : I s' := by
  induction h with
  | refl => exact hs
  | tail _ hstep ih => exact step _ _ ih hstep

/-- What unfolds like the body is the loop, when a measure bounds the passes. -/
theorem loop_eq {f : σ → Outcome ε β} {size : σ → Nat} (e : ε)
    (unfolds : ∀ s, I s → f s = body s >>= next f)
    (step : ∀ s s', I s → Steps body s s' → I s' ∧ size s' < size s)
    {n : Nat} {s : σ} (hs : I s) (hn : size s < n) : loop e body n s = f s := by
  induction n generalizing s with
  | zero => omega
  | succ n ih =>
    rw [loop, unfolds s hs]
    cases hbody : body s with
    | refused => rfl
    | fault => rfl
    | value p =>
      cases p with
      | leave b => rfl
      | again s' =>
        obtain ⟨hs', hlt⟩ := step s s' hs hbody
        exact ih hs' (by omega)

end

end Outcome
end Control
end YamlSigil
