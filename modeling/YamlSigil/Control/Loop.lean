/-
Loops of programs that are in dialogue with a party.

A loop whose end is up to the party is run for a number of passes, and is unfinished
when they are not enough.  What holds of it for every number of passes holds of every
run, however long; and a loop that is never unfinished, for a number of passes, ends.

A run is proved about along an invariant of the state of the loop and of the party.  The
rule with a measure also says that the loop ends.
-/
import YamlSigil.Control.Crash
import YamlSigil.Control.Fault

namespace YamlSigil
namespace Control

/-- The passes that a loop was given are not enough. -/
structure Unfinished where
deriving Repr, DecidableEq

/-- A program whose loops are given a number of passes. -/
abbrev Looping (Q : Type) (A : Q → Type) (α : Type) := ExceptT Unfinished (Dialogue Q A) α

namespace Looping

variable {Q : Type} {A : Q → Type} {S σ α β : Type}

/-- Put one question and return its answer. -/
def call (q : Q) : Looping Q A (A q) := ExceptT.mk (.ask q fun a => .done (.ok a))

/-- What is left to do behind a pass, when `f` does the rest. -/
def next (f : σ → Looping Q A β) : Pass σ β → Looping Q A β
  | .again s => f s
  | .leave b => pure b

/-- At most `n` passes through `body`. -/
def loop (body : σ → Looping Q A (Pass σ β)) : Nat → σ → Looping Q A β
  | 0, _ => throw {}
  | n + 1, s => body s >>= next (loop body n)

/-! ## What runs do -/

/-- Each step is one of `guarantee`, the results satisfy `post`, and where a loop is
unfinished `stuck` holds. -/
abbrev Does (world : World Q A S) (guarantee : S → S → Prop) (stuck : S → Prop)
    (post : α → S → Prop) (p : Looping Q A α) (s : S) : Prop :=
  Dialogue.Tries world guarantee post stuck p s

/-- What a pass leaves behind: the invariant, or the condition on the result. -/
def AfterPass (inv : σ → S → Prop) (post : β → S → Prop) : Pass σ β → S → Prop
  | .again s, t => inv s t
  | .leave b, t => post b t

section
variable {world : World Q A S} {guarantee : S → S → Prop} {stuck : S → Prop} {s : S}

theorem does_pure {post : α → S → Prop} {a : α} (h : post a s) :
    Does world guarantee stuck post (pure a) s := h

theorem does_call {q : Q} {post : A q → S → Prop}
    (h : ∀ a t, world q s a t → guarantee s t ∧ post a t) :
    Does world guarantee stuck post (call q) s := h

theorem Does.mono {post post' : α → S → Prop} {p : Looping Q A α}
    (h : Does world guarantee stuck post p s) (hpost : ∀ a t, post a t → post' a t) :
    Does world guarantee stuck post' p s := Dialogue.Tries.mono h hpost

theorem Does.weaken {guarantee' : S → S → Prop} {post : α → S → Prop} {p : Looping Q A α}
    (h : Does world guarantee stuck post p s) (hstep : ∀ s t, guarantee s t → guarantee' s t) :
    Does world guarantee' stuck post p s := by
  have hgo : ∀ (d : Dialogue Q A (Except Unfinished α)) (s : S),
      d.Keeps world guarantee (Dialogue.Outcome post stuck) s →
        d.Keeps world guarantee' (Dialogue.Outcome post stuck) s := by
    intro d
    induction d with
    | done r => exact fun _ h => h
    | ask q k ih =>
      intro s h a t hworld
      obtain ⟨hguarantee, hrest⟩ := h a t hworld
      exact ⟨hstep s t hguarantee, ih a t hrest⟩
  exact hgo p.run s h

theorem Does.bind {post : α → S → Prop} {post' : β → S → Prop} {p : Looping Q A α}
    {f : α → Looping Q A β} (h : Does world guarantee stuck post p s)
    (hf : ∀ a t, post a t → Does world guarantee stuck post' (f a) t) :
    Does world guarantee stuck post' (p >>= f) s :=
  Dialogue.Tries.bind h fun a t ha _ => hf a t ha

/-- The first question of a program, and the rest of it. -/
theorem does_call_bind {q : Q} {post : α → S → Prop} {f : A q → Looping Q A α}
    (h : ∀ a t, world q s a t → guarantee s t ∧ Does world guarantee stuck post (f a) t) :
    Does world guarantee stuck post (call q >>= f) s := by
  have hfirst : Does world guarantee stuck (fun a t => Does world guarantee stuck post (f a) t)
      (call q) s := does_call h
  exact hfirst.bind fun _ _ hf => hf

/-- An invariant that every pass keeps holds until the loop is left.  Where `prompt` holds
every pass also lowers a measure, and a loop with more passes than that is not unfinished. -/
theorem does_loop {I : σ → S → Prop} {post : β → S → Prop} {body : σ → Looping Q A (Pass σ β)}
    (prompt : Prop) (size : σ → S → Nat)
    (hbody : ∀ x t, I x t → Does world guarantee stuck
      (AfterPass (fun x' t' => I x' t' ∧ (prompt → size x' t' < size x t)) post) (body x) t)
    (n : Nat) {x : σ} (h : I x s)
    (hstuck : (prompt → n ≤ size x s) → ∀ x t, I x t → stuck t) :
    Does world guarantee stuck post (loop body n x) s := by
  induction n generalizing x s with
  | zero => exact Dialogue.tries_throw (hstuck (fun _ => Nat.zero_le _) x s h)
  | succ n ih =>
    refine Does.bind (hbody x s h) fun r t hr => ?_
    cases r with
    | again x' =>
      obtain ⟨hinv, hlt⟩ := hr
      refine ih hinv fun hle => hstuck fun hprompt => ?_
      have := hle hprompt
      have := hlt hprompt
      omega
    | leave b => exact hr

/-- An invariant that every pass keeps, and nothing about the end of the loop. -/
theorem does_loop_of_inv {I : σ → S → Prop} {post : β → S → Prop}
    {body : σ → Looping Q A (Pass σ β)}
    (hbody : ∀ x t, I x t → Does world guarantee stuck (AfterPass I post) (body x) t)
    (hstuck : ∀ x t, I x t → stuck t) (n : Nat) {x : σ} (h : I x s) :
    Does world guarantee stuck post (loop body n x) s := by
  refine does_loop False (fun _ _ => 0) (fun x t hx => (hbody x t hx).mono fun r t' hr => ?_) n h
    fun _ => hstuck
  cases r with
  | again x' => exact ⟨hr, False.elim⟩
  | leave b => exact hr

/-- A loop whose passes lower a measure is left before the passes run out. -/
theorem does_loop_of_measure {I : σ → S → Prop} {post : β → S → Prop}
    {body : σ → Looping Q A (Pass σ β)} (size : σ → S → Nat)
    (hbody : ∀ x t, I x t → Does world guarantee stuck
      (AfterPass (fun x' t' => I x' t' ∧ size x' t' < size x t) post) (body x) t)
    (n : Nat) {x : σ} (h : I x s) (hn : size x s < n) :
    Does world guarantee stuck post (loop body n x) s := by
  refine does_loop True size (fun x t hx => (hbody x t hx).mono fun r t' hr => ?_) n h
    fun hle => absurd (hle trivial) (Nat.not_le_of_lt hn)
  cases r with
  | again x' => exact ⟨hr.1, fun _ => hr.2⟩
  | leave b => exact hr

end

/-! ## Programs by what they ask -/

/-- On every path every question is one of `P`, and a loop is run out of only if `short`. -/
def AsksOnly (P : Q → Prop) (short : Prop) (p : Looping Q A α) : Prop := go p.run
where
  go : Dialogue Q A (Except Unfinished α) → Prop
    | .done (.ok _) => True
    | .done (.error _) => short
    | .ask q k => P q ∧ ∀ a, go (k a)

section
variable {P : Q → Prop} {short : Prop}

theorem asksOnly_pure (a : α) : AsksOnly P short (pure a : Looping Q A α) := trivial

theorem asksOnly_call {q : Q} (h : P q) : AsksOnly P short (call (A := A) q) :=
  ⟨h, fun _ => trivial⟩

theorem AsksOnly.bind {p : Looping Q A α} {f : α → Looping Q A β} (h : AsksOnly P short p)
    (hf : ∀ a, AsksOnly P short (f a)) : AsksOnly P short (p >>= f) := by
  have hgo : ∀ d : Dialogue Q A (Except Unfinished α), AsksOnly.go P short d →
      AsksOnly.go P short (d >>= ExceptT.bindCont f) := by
    intro d hd
    induction d with
    | done r =>
      cases r with
      | ok a => exact hf a
      | error e => exact hd
    | ask q k ih => exact ⟨hd.1, fun a => ih a (hd.2 a)⟩
  exact hgo p.run h

theorem asksOnly_loop {body : σ → Looping Q A (Pass σ β)}
    (h : ∀ x, AsksOnly P True (body x)) (n : Nat) (x : σ) : AsksOnly P True (loop body n x) := by
  induction n generalizing x with
  | zero => trivial
  | succ n ih =>
    refine AsksOnly.bind (h x) fun r => ?_
    cases r with
    | again x' => exact ih x'
    | leave b => exact asksOnly_pure b

/-- What every question of a program keeps, the program keeps. -/
theorem AsksOnly.does {world : World Q A S} {guarantee : S → S → Prop} {stuck I : S → Prop}
    {p : Looping Q A α} {s : S} (h : AsksOnly P short p)
    (hstep : ∀ q a s t, P q → I s → world q s a t → guarantee s t ∧ I t) (hs : I s)
    (hshort : short → ∀ t, I t → stuck t) :
    Does world guarantee stuck (fun _ t => I t) p s := by
  have hgo : ∀ (d : Dialogue Q A (Except Unfinished α)) (s : S), AsksOnly.go P short d → I s →
      d.Keeps world guarantee (Dialogue.Outcome (fun _ t => I t) stuck) s := by
    intro d
    induction d with
    | done r =>
      intro s hd hs
      cases r with
      | ok a => exact hs
      | error e => exact hshort hd s hs
    | ask q k ih =>
      intro s hd hs a t hworld
      obtain ⟨hguarantee, ht⟩ := hstep q a s t hd.1 hs hworld
      exact ⟨hguarantee, ih a t (hd.2 a) ht⟩
  exact hgo p.run s h hs

end

end Looping

end Control
end YamlSigil
