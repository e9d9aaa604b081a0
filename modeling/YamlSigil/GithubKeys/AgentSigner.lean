/-
The signer that asks an SSH agent.

One connection is shared by every call, and the agent answers requests in their order.  A
call takes the connection for as long as it waits, and puts it back with the answer: a call
that fails, times out or is dropped leaves none behind, so that no call reads an answer to
the request of another.
-/
import Mathlib.Logic.Function.Basic
import Mathlib.Logic.Relation
import YamlSigil.GithubKeys.Candidate

namespace YamlSigil
namespace GithubKeys

open YamlSigil.Core Verification

/-! ## The identities of the agent -/

section
variable {C : KeyCrypto} {S : Ssh}

/-- An identity that is supported: its public key, and the candidate made of it. -/
abbrev Identity (C : KeyCrypto) (S : Ssh) := S.PublicKey × Candidate C S

def Identity.octets (identity : Identity C S) : Bytes := identity.2.octets

section
variable {candidates : Option (List (Candidate C S))} {fingerprint : Option S.Fingerprint}

end

/-- Keys that are their own fingerprints. -/
def Reference.ssh : Ssh where
  PublicKey := Bytes
  Fingerprint := Bytes
  ed25519 := some
  fingerprint := id
  fromOpenssh _ := .error []

def Reference.candidate (key : Bytes) : Candidate Verification.Reference.keyCrypto Reference.ssh :=
  ⟨key, key, none⟩

def Reference.identity (key : Bytes) : Identity Verification.Reference.keyCrypto Reference.ssh :=
  (key, Reference.candidate key)

end

/-! ## The connection -/

inductive SshAlgorithm where
  | ed25519
  | other
deriving Repr, DecidableEq

/-- What the agent answers. -/
inductive AgentReply where
  | signature (algorithm : SshAlgorithm) (bytes : Bytes)
  | failure
deriving Repr, DecidableEq

/-- The checks of `try_sign` behind the request. -/
def acceptReply : AgentReply → Option Octets64
  | .signature .ed25519 bytes => octets64 bytes
  | _ => none

/-- Where a call of `try_sign` stands.  It is dropped when its future is. -/
inductive CallState where
  | idle
  | waiting (message : Bytes)
  | asking (message : Bytes) (sent : Bool)
  | returned (message : Bytes) (result : Option Octets64)
  | dropped
deriving Repr, DecidableEq

structure Request (Key : Type) where
  call : Nat
  key : Key
  message : Bytes
deriving Repr, DecidableEq

/-- The key that the signer is bound to; the requests on the connection and the answers of
the agent, both in order; how many of the answers were read; whether the connection is in its
slot, and who holds the lock. -/
structure Signing (Key : Type) where
  publicKey : Key
  sent : List (Request Key)
  answered : List AgentReply
  taken : Nat
  slot : Bool
  holder : Option Nat
  calls : Nat → CallState

namespace Signing

variable {Key : Type}

def setCall (s : Signing Key) (c : Nat) (state : CallState) : Signing Key :=
  { s with calls := Function.update s.calls c state }

/-- A call gives the lock back; the connection is put back with a signature only. -/
def release (s : Signing Key) (c : Nat) (state : CallState) (slot : Bool) : Signing Key :=
  { s.setCall c state with holder := none, slot := slot }

/-- Calls, the agent and the timers, one step at a time. -/
inductive Step : Signing Key → Signing Key → Prop
  | call {s : Signing Key} {c : Nat} (message : Bytes) (h : s.calls c = .idle) :
      Step s (s.setCall c (.waiting message))
  | refuse {s : Signing Key} {c : Nat} {message : Bytes} (h : s.calls c = .waiting message)
      (hfree : s.holder = none) (hslot : s.slot = false) :
      Step s (s.setCall c (.returned message none))
  | acquire {s : Signing Key} {c : Nat} {message : Bytes} (h : s.calls c = .waiting message)
      (hfree : s.holder = none) (hslot : s.slot = true) :
      Step s { s.setCall c (.asking message false) with holder := some c, slot := false }
  | send {s : Signing Key} {c : Nat} {message : Bytes} (h : s.calls c = .asking message false) :
      Step s { s.setCall c (.asking message true) with
        sent := s.sent ++ [⟨c, s.publicKey, message⟩] }
  | answer {s : Signing Key} (reply : AgentReply) (h : s.answered.length < s.sent.length) :
      Step s { s with answered := s.answered ++ [reply] }
  | receive {s : Signing Key} {c : Nat} {message : Bytes} {reply : AgentReply}
      (h : s.calls c = .asking message true) (hreply : s.answered[s.taken]? = some reply) :
      Step s { s.release c (.returned message (acceptReply reply)) (acceptReply reply).isSome with
        taken := s.taken + 1 }
  | fail {s : Signing Key} {c : Nat} {message : Bytes} {sent : Bool}
      (h : s.calls c = .asking message sent) :
      Step s (s.release c (.returned message none) false)
  | drop {s : Signing Key} {c : Nat} {message : Bytes} {sent : Bool}
      (h : s.calls c = .asking message sent) : Step s (s.release c .dropped false)
  | leave {s : Signing Key} {c : Nat} {message : Bytes} (h : s.calls c = .waiting message) :
      Step s (s.setCall c .dropped)

/-- A fresh signer of the key that was selected. -/
def start (publicKey : Key) : Signing Key := ⟨publicKey, [], [], 0, true, none, fun _ => .idle⟩

abbrev Reaches : Signing Key → Signing Key → Prop := Relation.ReflTransGen Step

/-! ## Runs -/

/-- A request of the call, under the key, was answered with this signature. -/
def Answered (s : Signing Key) (key : Key) (c : Nat) (message : Bytes) (signature : Octets64) :
    Prop :=
  ∃ (i : Nat) (reply : AgentReply), s.sent[i]? = some ⟨c, key, message⟩ ∧
    s.answered[i]? = some reply ∧ acceptReply reply = some signature

/-- Every answer that was read is the answer to the request of the call that read it: the
connection is in its slot only when all requests were answered and read, and a call that has
sent a request holds the lock and was the last to send. -/
structure Inv (s : Signing Key) : Prop where
  answered_le : s.answered.length ≤ s.sent.length
  holder : ∀ c message sent, s.calls c = .asking message sent → s.holder = some c ∧ s.slot = false
  slot : s.slot = true → s.holder = none ∧ s.taken = s.sent.length
  asking : ∀ c message, s.calls c = .asking message false → s.taken = s.sent.length
  asked : ∀ c message, s.calls c = .asking message true →
    ∃ earlier, s.sent = earlier ++ [⟨c, s.publicKey, message⟩] ∧ s.taken = earlier.length
  returned : ∀ c message signature, s.calls c = .returned message (some signature) →
    s.Answered s.publicKey c message signature
  failed : ∀ c message, s.calls c = .returned message none → s.slot = false ∧ s.holder = none

theorem Answered.mono {s t : Signing Key} {key : Key} {c : Nat} {message : Bytes}
    {signature : Octets64} (h : s.Answered key c message signature) (hsent : s.sent <+: t.sent)
    (hanswered : s.answered <+: t.answered) : t.Answered key c message signature := by
  obtain ⟨i, reply, hi, hreply, haccept⟩ := h
  have hsome : ∀ {α : Type} {l l' : List α} {i : Nat} {a : α}, l <+: l' → l[i]? = some a →
      l'[i]? = some a := by
    intro α l l' i a hstart ha
    obtain ⟨rest, rfl⟩ := hstart
    rw [List.getElem?_append_left (List.getElem?_eq_some_iff.mp ha).1]
    exact ha
  exact ⟨i, reply, hsome hsent hi, hsome hanswered hreply, haccept⟩

theorem inv_start (publicKey : Key) : (start publicKey).Inv where
  answered_le := Nat.le_refl _
  holder _ _ _ h := by cases h
  slot _ := ⟨rfl, rfl⟩
  asking _ _ h := by cases h
  asked _ _ h := by cases h
  returned _ _ _ h := by cases h
  failed _ _ h := by cases h

/-- The state of one call is replaced. -/
theorem calls_setCall {s : Signing Key} {c c' : Nat} {state state' : CallState}
    (h : (s.setCall c state).calls c' = state') :
    c' = c ∧ state' = state ∨ c' ≠ c ∧ s.calls c' = state' := by
  by_cases heq : c' = c
  · subst heq
    refine .inl ⟨rfl, ?_⟩
    rw [← h]
    exact Function.update_self _ _ _
  · refine .inr ⟨heq, ?_⟩
    rw [← h]
    exact (Function.update_of_ne heq _ _).symm

/-- A call that goes on without the connection. -/
theorem Inv.setCall {s : Signing Key} (h : s.Inv) (c : Nat) {state : CallState}
    (hasking : ∀ message sent, state ≠ .asking message sent)
    (hsigned : ∀ message signature, state ≠ .returned message (some signature))
    (hfailed : ∀ message, state = .returned message none → s.slot = false ∧ s.holder = none) :
    (s.setCall c state).Inv where
  answered_le := h.answered_le
  holder c' message sent hc := by
    rcases calls_setCall hc with ⟨-, heq⟩ | ⟨-, hc⟩
    · exact absurd heq.symm (hasking message sent)
    · exact h.holder c' message sent hc
  slot := h.slot
  asking c' message hc := by
    rcases calls_setCall hc with ⟨-, heq⟩ | ⟨-, hc⟩
    · exact absurd heq.symm (hasking message false)
    · exact h.asking c' message hc
  asked c' message hc := by
    rcases calls_setCall hc with ⟨-, heq⟩ | ⟨-, hc⟩
    · exact absurd heq.symm (hasking message true)
    · exact h.asked c' message hc
  returned c' message signature hc := by
    rcases calls_setCall hc with ⟨-, heq⟩ | ⟨-, hc⟩
    · exact absurd heq.symm (hsigned message signature)
    · exact h.returned c' message signature hc
  failed c' message hc := by
    rcases calls_setCall hc with ⟨-, heq⟩ | ⟨-, hc⟩
    · exact hfailed message heq.symm
    · exact h.failed c' message hc

/-- Only the holder of the slot asks. -/
theorem Inv.asking_unique {s : Signing Key} (h : s.Inv) {c : Nat} {message : Bytes} {sent : Bool}
    (hc : s.calls c = .asking message sent) (c' : Nat) (message' : Bytes) (sent' : Bool)
    (hne : c' ≠ c) : s.calls c' ≠ .asking message' sent' := by
  intro hc'
  have hholder := (h.holder c message sent hc).1
  rw [(h.holder c' message' sent' hc').1] at hholder
  exact hne (Option.some.inj hholder)

/-- The connection is closed, whatever was sent on it. -/
theorem Inv.release {s : Signing Key} (h : s.Inv) {c : Nat} {message : Bytes} {sent : Bool}
    {state : CallState} (hc : s.calls c = .asking message sent)
    (hasking : ∀ message sent, state ≠ .asking message sent)
    (hsigned : ∀ message signature, state ≠ .returned message (some signature)) :
    (s.release c state false).Inv := by
  have hother := h.asking_unique hc
  refine ⟨h.answered_le, fun c' m b hc' => ?_, fun hslot => (by cases hslot), fun c' m hc' => ?_,
    fun c' m hc' => ?_, fun c' m signature hc' => ?_, fun _ _ _ => ⟨rfl, rfl⟩⟩
  · rcases calls_setCall hc' with ⟨-, heq⟩ | ⟨hne, hc'⟩
    · exact absurd heq.symm (hasking m b)
    · exact absurd hc' (hother c' m b hne)
  · rcases calls_setCall hc' with ⟨-, heq⟩ | ⟨hne, hc'⟩
    · exact absurd heq.symm (hasking m false)
    · exact absurd hc' (hother c' m false hne)
  · rcases calls_setCall hc' with ⟨-, heq⟩ | ⟨hne, hc'⟩
    · exact absurd heq.symm (hasking m true)
    · exact absurd hc' (hother c' m true hne)
  · rcases calls_setCall hc' with ⟨-, heq⟩ | ⟨hne, hc'⟩
    · exact absurd heq.symm (hsigned m signature)
    · exact h.returned c' m signature hc'

theorem Inv.step {s t : Signing Key} (h : s.Inv) (hstep : Step s t) : t.Inv := by
  cases hstep with
  | call message hc =>
    exact h.setCall _ (fun _ _ h => by cases h) (fun _ _ h => by cases h) fun _ h => by cases h
  | refuse hc hfree hslot =>
    exact h.setCall _ (fun _ _ h => by cases h) (fun _ _ h => by cases h)
      fun _ _ => ⟨hslot, hfree⟩
  | leave hc =>
    exact h.setCall _ (fun _ _ h => by cases h) (fun _ _ h => by cases h) fun _ h => by cases h
  | fail hc => exact h.release hc (fun _ _ h => by cases h) (fun _ _ h => by cases h)
  | drop hc => exact h.release hc (fun _ _ h => by cases h) (fun _ _ h => by cases h)
  | answer reply hlt =>
    refine ⟨?_, h.holder, h.slot, h.asking, h.asked, fun c m signature hc => ?_, h.failed⟩
    · show (s.answered ++ [reply]).length ≤ s.sent.length
      rw [List.length_append, List.length_singleton]
      omega
    · exact (h.returned c m signature hc).mono List.prefix_rfl (List.prefix_append _ _)
  | @acquire c message hc hfree hslot =>
    have htaken := (h.slot hslot).2
    have hnone : ∀ c' m b, s.calls c' ≠ .asking m b := by
      intro c' m b hc'
      have := (h.holder c' m b hc').1
      rw [hfree] at this
      cases this
    refine ⟨h.answered_le, fun c' m b hc' => ?_, fun h => (by cases h), fun _ _ _ => htaken,
      fun c' m hc' => ?_, fun c' m signature hc' => ?_, fun c' m hc' => ?_⟩
    · rcases calls_setCall hc' with ⟨rfl, -⟩ | ⟨-, hc'⟩
      · exact ⟨rfl, rfl⟩
      · exact absurd hc' (hnone c' m b)
    · rcases calls_setCall hc' with ⟨-, heq⟩ | ⟨-, hc'⟩
      · cases heq
      · exact absurd hc' (hnone c' m true)
    · rcases calls_setCall hc' with ⟨-, heq⟩ | ⟨-, hc'⟩
      · cases heq
      · exact h.returned c' m signature hc'
    · rcases calls_setCall hc' with ⟨-, heq⟩ | ⟨-, hc'⟩
      · cases heq
      · rw [(h.failed c' m hc').1] at hslot
        cases hslot
  | @send c message hc =>
    have htaken := h.asking c message hc
    obtain ⟨hholder, hslot⟩ := h.holder c message false hc
    have hother := h.asking_unique hc
    refine ⟨?_, fun c' m b hc' => ?_, fun h => ?_, fun c' m hc' => ?_, fun c' m hc' => ?_,
      fun c' m signature hc' => ?_, fun c' m hc' => ?_⟩
    · show s.answered.length ≤ (s.sent ++ [(⟨c, s.publicKey, message⟩ : Request Key)]).length
      rw [List.length_append]
      exact Nat.le_add_right_of_le h.answered_le
    · rcases calls_setCall hc' with ⟨rfl, -⟩ | ⟨hne, hc'⟩
      · exact ⟨hholder, hslot⟩
      · exact absurd hc' (hother c' m b hne)
    · exact absurd (hslot.symm.trans h) Bool.false_ne_true
    · rcases calls_setCall hc' with ⟨-, heq⟩ | ⟨hne, hc'⟩
      · cases heq
      · exact absurd hc' (hother c' m false hne)
    · rcases calls_setCall hc' with ⟨rfl, heq⟩ | ⟨hne, hc'⟩
      · cases heq
        exact ⟨s.sent, rfl, htaken⟩
      · exact absurd hc' (hother c' m true hne)
    · rcases calls_setCall hc' with ⟨-, heq⟩ | ⟨-, hc'⟩
      · cases heq
      · exact (h.returned c' m signature hc').mono (List.prefix_append _ _) List.prefix_rfl
    · rcases calls_setCall hc' with ⟨-, heq⟩ | ⟨-, hc'⟩
      · cases heq
      · exact h.failed c' m hc'
  | @receive c message reply hc hreply =>
    obtain ⟨hholder, -⟩ := h.holder c message true hc
    obtain ⟨earlier, hsent, htaken⟩ := h.asked c message hc
    have hother := h.asking_unique hc
    refine ⟨h.answered_le, fun c' m b hc' => ?_, fun _ => ⟨rfl, ?_⟩, fun c' m hc' => ?_,
      fun c' m hc' => ?_, fun c' m signature hc' => ?_, fun c' m hc' => ?_⟩
    · rcases calls_setCall hc' with ⟨-, heq⟩ | ⟨hne, hc'⟩
      · cases heq
      · exact absurd hc' (hother c' m b hne)
    · -- the request of this call was the last one
      show s.taken + 1 = s.sent.length
      rw [hsent, htaken, List.length_append, List.length_singleton]
    · rcases calls_setCall hc' with ⟨-, heq⟩ | ⟨hne, hc'⟩
      · cases heq
      · exact absurd hc' (hother c' m false hne)
    · rcases calls_setCall hc' with ⟨-, heq⟩ | ⟨hne, hc'⟩
      · cases heq
      · exact absurd hc' (hother c' m true hne)
    · rcases calls_setCall hc' with ⟨rfl, heq⟩ | ⟨-, hc'⟩
      · obtain ⟨rfl, haccept⟩ := CallState.returned.inj heq
        refine ⟨s.taken, reply, ?_, hreply, haccept.symm⟩
        show s.sent[s.taken]? = some ⟨c', s.publicKey, m⟩
        rw [hsent, htaken, List.getElem?_concat_length]
      · exact h.returned c' m signature hc'
    · rcases calls_setCall hc' with ⟨rfl, heq⟩ | ⟨hne, hc'⟩
      · obtain ⟨rfl, haccept⟩ := CallState.returned.inj heq
        rw [← haccept]
        exact ⟨rfl, rfl⟩
      · have hfailed := (h.failed c' m hc').2
        rw [hholder] at hfailed
        cases hfailed

theorem Inv.reaches {s t : Signing Key} (h : s.Inv) (hreach : Reaches s t) : t.Inv := by
  induction hreach with
  | refl => exact h
  | tail _ hstep ih => exact ih.step hstep

/-- The signer stays bound to its key. -/
theorem publicKey_of_reaches {s t : Signing Key} (h : Reaches s t) :
    t.publicKey = s.publicKey := by
  induction h with
  | refl => rfl
  | tail _ hstep ih =>
    rw [← ih]
    cases hstep <;> rfl

/-- Whatever calls run beside each other, fail, time out or are dropped: a signature that a
call returns is the answer of the agent to a request of this very call, for the message that
it was given and under the key that was selected. -/
theorem signature_answers_own_request {publicKey : Key} {s : Signing Key}
    (h : Reaches (start publicKey) s) {c : Nat} {message : Bytes} {signature : Octets64}
    (hc : s.calls c = .returned message (some signature)) :
    s.Answered publicKey c message signature := by
  have hkey : s.publicKey = publicKey := publicKey_of_reaches h
  have hanswered := ((inv_start publicKey).reaches h).returned c message signature hc
  rw [hkey] at hanswered
  exact hanswered

/-- The signer of a selected key. -/
def fresh : Signing Bytes := start Verification.rfc8032Test1PublicKey

/-- One call, from its start to the request. -/
def asking : Signing Bytes :=
  { (fresh.setCall 0 (.waiting [1])).setCall 0 (.asking [1] false) with
    holder := some 0, slot := false }

theorem reaches_asking : Reaches fresh asking :=
  (Relation.ReflTransGen.single (.call [1] rfl)).tail (.acquire rfl rfl rfl)

def sentOnce : Signing Bytes :=
  { asking.setCall 0 (.asking [1] true) with
    sent := [⟨0, Verification.rfc8032Test1PublicKey, [1]⟩] }

def replied : Signing Bytes :=
  { sentOnce with answered := [.signature .ed25519 Verification.rfc8032Test1Signature.val] }

/-- The answer is returned, and the connection is in its slot again. -/
def signed : Signing Bytes :=
  { replied.release 0 (.returned [1] (some Verification.rfc8032Test1Signature)) true with
    taken := 1 }

theorem reaches_signed : Reaches fresh signed := by
  have hsend : Step asking sentOnce := .send (c := 0) rfl
  have hanswer : Step sentOnce replied := .answer _ Nat.zero_lt_one
  have hreceive : Step replied signed := by
    have hasked : replied.calls 0 = .asking [1] true := rfl
    have hreply : replied.answered[replied.taken]? =
        some (.signature .ed25519 Verification.rfc8032Test1Signature.val) := rfl
    have hstep := Step.receive hasked hreply
    rw [acceptReply, octets64_val] at hstep
    exact hstep
  exact ((reaches_asking.tail hsend).tail hanswer).tail hreceive

theorem signature_answers_own_request_signed :
    signed.Answered Verification.rfc8032Test1PublicKey 0 [1]
      Verification.rfc8032Test1Signature := by
  have hc : signed.calls 0 = .returned [1] (some Verification.rfc8032Test1Signature) := rfl
  exact signature_answers_own_request reaches_signed hc

theorem step_of_closed {s t : Signing Key} (h : s.Inv) (hslot : s.slot = false)
    (hfree : s.holder = none) (hstep : Step s t) :
    t.slot = false ∧ t.holder = none ∧ t.sent = s.sent ∧
      ∀ c message signature, t.calls c = .returned message (some signature) →
        s.calls c = .returned message (some signature) := by
  have hnone : ∀ c m b, s.calls c ≠ .asking m b := by
    intro c m b hc
    have hholder := (h.holder c m b hc).1
    rw [hfree] at hholder
    cases hholder
  have hset : ∀ (c : Nat) (state : CallState), (∀ m o, state ≠ .returned m (some o)) →
      ∀ c' m o, (s.setCall c state).calls c' = .returned m (some o) →
        s.calls c' = .returned m (some o) := by
    intro c state hstate c' m o hc
    rcases calls_setCall hc with ⟨-, heq⟩ | ⟨-, hc⟩
    · exact absurd heq.symm (hstate m o)
    · exact hc
  cases hstep with
  | call message hc => exact ⟨hslot, hfree, rfl, hset _ _ fun _ _ h => by cases h⟩
  | refuse hc => exact ⟨hslot, hfree, rfl, hset _ _ fun _ _ h => by cases h⟩
  | leave hc => exact ⟨hslot, hfree, rfl, hset _ _ fun _ _ h => by cases h⟩
  | answer reply => exact ⟨hslot, hfree, rfl, fun _ _ _ hc => hc⟩
  | acquire hc hfree' hslot' =>
    rw [hslot] at hslot'
    cases hslot'
  | send hc | receive hc | fail hc | drop hc => exact absurd hc (hnone _ _ _)

/-- Once a call has failed, or was dropped while it waited for the agent, nothing is sent to
the agent any more, and no other call returns a signature. -/
theorem nothing_sent_after_failure {publicKey : Key} {s t : Signing Key}
    (h : Reaches (start publicKey) s) {c : Nat} {message : Bytes}
    (hc : s.calls c = .returned message none ∨
      ∃ (r : Signing Key) (sent : Bool), r.calls c = .asking message sent ∧
        s = r.release c .dropped false)
    (hreach : Reaches s t) :
    t.sent = s.sent ∧ ∀ c' message' signature,
      t.calls c' = .returned message' (some signature) →
        s.calls c' = .returned message' (some signature) := by
  have hs := (inv_start publicKey).reaches h
  have hclosed : s.slot = false ∧ s.holder = none := by
    rcases hc with hc | ⟨r, sent, -, rfl⟩
    · exact hs.failed c message hc
    · exact ⟨rfl, rfl⟩
  have hrun : t.slot = false ∧ t.holder = none ∧ t.sent = s.sent ∧
      ∀ c' message' signature, t.calls c' = .returned message' (some signature) →
        s.calls c' = .returned message' (some signature) := by
    induction hreach with
    | refl => exact ⟨hclosed.1, hclosed.2, rfl, fun _ _ _ h => h⟩
    | tail hsteps hstep ih =>
      obtain ⟨hslot, hfree, hsent, hcalls⟩ := ih
      obtain ⟨hslot', hfree', hsent', hcalls'⟩ :=
        step_of_closed (hs.reaches hsteps) hslot hfree hstep
      exact ⟨hslot', hfree', hsent'.trans hsent,
        fun c' m o hc' => hcalls c' m o (hcalls' c' m o hc')⟩
  exact hrun.2.2

/-- A call that comes after a timeout is refused, and has sent nothing. -/
def refused : Signing Bytes :=
  ((asking.release 0 (.returned [1] none) false).setCall 1 (.waiting [2])).setCall 1
    (.returned [2] none)

theorem nothing_sent_after_failure_asking : refused.sent = [] := by
  have hfail : Step asking (asking.release 0 (.returned [1] none) false) := .fail (c := 0) rfl
  have hc : (asking.release 0 (.returned [1] none) false).calls 0 = .returned [1] none := rfl
  have hlater : Reaches (asking.release 0 (.returned [1] none) false) refused :=
    (Relation.ReflTransGen.single (.call [2] rfl)).tail (.refuse rfl rfl rfl)
  exact (nothing_sent_after_failure (reaches_asking.tail hfail) (.inl hc) hlater).1

end Signing

end GithubKeys
end YamlSigil
