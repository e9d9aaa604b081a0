/-
What a supervised command leaves behind.

However its writes, its exit and the reads of the supervisor fall together, a success hands
over all that was written to both streams, and at no moment more than the limit and one octet
of a stream has been read.  A failure has signalled the group of the command and waited for
it.  A command that exits is not waited for longer than a bound that the limits give.
-/
import YamlSigil.Tooling.BoundedProcess

namespace YamlSigil
namespace Tooling

open YamlSigil.Core Control

/-! ## What calls leave alone -/

/-- Nothing was read from the pipe. -/
structure Pipe.Later (p q : Pipe) : Prop where
  taken : q.taken = p.taken
  written : p.written <+: q.written
  ended : p.hasWriter = false → q.hasWriter = false ∧ q.written = p.written

theorem Pipe.Later.refl (p : Pipe) : p.Later p := ⟨rfl, List.prefix_rfl, fun h => ⟨h, rfl⟩⟩

theorem Pipe.Later.trans {p q r : Pipe} (h : p.Later q) (h' : q.Later r) : p.Later r where
  taken := h'.taken.trans h.taken
  written := h.written.trans h'.written
  ended := by
    intro hp
    obtain ⟨hq, hwritten⟩ := h.ended hp
    obtain ⟨hr, hwritten'⟩ := h'.ended hq
    exact ⟨hr, hwritten'.trans hwritten⟩

/-- The supervisor has used none of its ends but `touched`, and what it knows stays true. -/
structure Kept (touched : Option Handle) (s t : Machine) : Prop where
  pipe : ∀ stream, touched ≠ some (.output stream) → (s.pipe stream).Later (t.pipe stream)
  accepted : touched ≠ some .stdin → t.accepted = s.accepted
  reaped : ∀ status, s.reaped = some status → t.reaped = some status
  child : t.child = s.child
  groupsKilled : s.groupsKilled <:+ t.groupsKilled
  clock : s.clock ≤ t.clock

namespace Kept

variable {touched : Option Handle} {s t u : Machine}

theorem refl (touched : Option Handle) (s : Machine) : Kept touched s s :=
  ⟨fun _ _ => .refl _, fun _ => rfl, fun _ h => h, rfl, List.suffix_rfl, Nat.le_refl _⟩

theorem trans (h : Kept touched s t) (h' : Kept touched t u) : Kept touched s u where
  pipe stream hs := (h.pipe stream hs).trans (h'.pipe stream hs)
  accepted hs := (h'.accepted hs).trans (h.accepted hs)
  reaped status hs := h'.reaped status (h.reaped status hs)
  child := h'.child.trans h.child
  groupsKilled := h.groupsKilled.trans h'.groupsKilled
  clock := Nat.le_trans h.clock h'.clock

theorem mono (h : Kept none s t) (touched : Option Handle) : Kept touched s t :=
  ⟨fun stream _ => h.pipe stream (by simp), fun _ => h.accepted (by simp), h.reaped, h.child,
    h.groupsKilled, h.clock⟩

theorem none_trans (h : Kept none s t) (h' : Kept touched t u) : Kept touched s u :=
  (h.mono touched).trans h'

end Kept

theorem pipe_later_setPipe {s : Machine} {stream : Stream} {p : Pipe}
    (h : (s.pipe stream).Later p) (other : Stream) :
    (s.pipe other).Later ((s.setPipe stream p).pipe other) := by
  by_cases heq : other = stream
  · subst heq
    rw [Machine.pipe_setPipe]
    exact h
  · rw [Machine.pipe_setPipe_of_ne s p heq]
    exact .refl _

theorem kept_setPipe {s : Machine} {stream : Stream} {p : Pipe} (h : (s.pipe stream).Later p) :
    Kept none s (s.setPipe stream p) where
  pipe other _ := pipe_later_setPipe h other
  accepted _ := by cases stream <;> rfl
  reaped status hs := by cases stream <;> exact hs
  child := by cases stream <;> rfl
  groupsKilled := by cases stream <;> exact List.suffix_rfl
  clock := by cases stream <;> exact Nat.le_refl _

variable {setting : Setting}

/-- What goes on in between touches no end of the supervisor. -/
theorem Env.kept {s t : Machine} (h : Env setting s t) : Kept none s t := by
  cases h with
  | write stream bytes hopen =>
    refine kept_setPipe ⟨rfl, List.prefix_append _ _, fun hended => ?_⟩
    rw [hopen] at hended
    cases hended
  | close stream => exact kept_setPipe ⟨rfl, List.prefix_rfl, fun _ => ⟨rfl, rfl⟩⟩
  | tick n =>
    exact ⟨fun _ _ => .refl _, fun _ => rfl, fun _ h => h, rfl, List.suffix_rfl,
      Nat.le_add_right _ _⟩
  | fork | rename | regroup | exit | collect =>
    exact ⟨fun _ _ => .refl _, fun _ => rfl, fun _ h => h, rfl, List.suffix_rfl, Nat.le_refl _⟩

theorem Later.kept {s t : Machine} (h : Later setting s t) : Kept none s t := by
  induction h with
  | refl => exact .refl _ _
  | tail _ hstep ih => exact ih.trans hstep.kept

/-- The calls that use no end of a pipe, and do not spawn. -/
def Syscall.Quiet : Syscall → Prop
  | .spawn | .read _ _ | .write _ => False
  | _ => True

theorem answers_kept {q : Syscall} (hq : q.Quiet) {a : Answer q} {s t : Machine}
    (h : answers setting s q a t) : Kept none s t := by
  cases q with
  | spawn | read | write => exact hq.elim
  | childSubreaper | ownGroup | readStat | getpgid | now =>
    obtain ⟨rfl, -⟩ := h
    exact .refl _ _
  | readDir => exact h.1.kept
  | setNonblocking =>
    cases h
    exact .refl _ _
  | killChild =>
    cases h
    exact ⟨fun _ _ => .refl _, fun _ => rfl, fun _ h => h, rfl, List.suffix_rfl, Nat.le_refl _⟩
  | setChildSubreaper enabled =>
    rcases h with ⟨-, rfl⟩ | ⟨-, rfl⟩
    · exact ⟨fun _ _ => .refl _, fun _ => rfl, fun _ h => h, rfl, List.suffix_rfl, Nat.le_refl _⟩
    · exact .refl _ _
  | tryWait =>
    rcases h with ⟨-, rfl⟩ | ⟨_, -, -, rfl⟩ | ⟨-, -, rfl, -⟩ | ⟨_, _, _, -, hreaped, -, -, -, rfl⟩
    · exact .refl _ _
    · exact .refl _ _
    · exact .refl _ _
    · refine ⟨fun _ _ => .refl _, fun _ => rfl, fun status hs => ?_, rfl, List.suffix_rfl,
        Nat.le_refl _⟩
      rw [hreaped] at hs
      cases hs
  | killGroup group =>
    cases h
    exact ⟨fun _ _ => .refl _, fun _ => rfl, fun _ h => h, rfl, List.suffix_cons _ _,
      Nat.le_refl _⟩
  | killProcess pid =>
    cases h
    exact ⟨fun _ _ => .refl _, fun _ => rfl, fun _ h => h, rfl, List.suffix_rfl, Nat.le_refl _⟩
  | waitpid pid =>
    rcases h with ⟨-, rfl⟩ | ⟨-, rfl⟩ | ⟨_, _, -, -, -, -, rfl⟩
    · exact .refl _ _
    · exact .refl _ _
    · exact ⟨fun _ _ => .refl _, fun _ => rfl, fun _ h => h, rfl, List.suffix_rfl, Nat.le_refl _⟩
  | sleep =>
    obtain ⟨n, -, rfl⟩ := h
    exact ⟨fun _ _ => .refl _, fun _ => rfl, fun _ h => h, rfl, List.suffix_rfl,
      Nat.le_add_right _ _⟩

/-! ## Supervised runs -/

/-- From `deadline` on the command has exited. -/
def Ended (deadline : Nat) (s : Machine) : Prop :=
  deadline ≤ s.clock → ∀ pid proc, s.child = some pid → s.procs pid = some proc →
    proc.zombie ≠ none

/-- The machine, and the time by which the command exits where there is one. -/
def worldUntil (setting : Setting) (deadline : Option Nat) : World Syscall Answer Machine :=
  fun q s a t => world setting q s a t ∧ ∀ d ∈ deadline, Ended d t

/-- No more than the limit and one octet has been read of a stream, and what the command was
given is a part of the input from its start. -/
structure Retained (limits : OutputLimits) (input : Bytes) (s : Machine) : Prop where
  taken : ∀ stream, (s.pipe stream).taken <+: (s.pipe stream).written
  le : ∀ stream, (s.pipe stream).taken.length ≤ stream.limit limits + 1
  accepted : s.accepted <+: input

variable {deadline : Option Nat} {limits : OutputLimits} {input : Bytes} {stuck : Machine → Prop}
  {s t : Machine}

theorem Retained.kept (h : Retained limits input s) (hkept : Kept none s t) :
    Retained limits input t where
  taken stream := by
    have hpipe := hkept.pipe stream (by simp)
    rw [hpipe.taken]
    exact (h.taken stream).trans hpipe.written
  le stream := by
    rw [(hkept.pipe stream (by simp)).taken]
    exact h.le stream
  accepted := by
    rw [hkept.accepted (by simp)]
    exact h.accepted

/-- Every step retains no more than it may, and the results satisfy `post`. -/
abbrev Supervises (setting : Setting) (deadline : Option Nat) (limits : OutputLimits)
    (input : Bytes) (stuck : Machine → Prop) {α : Type} (post : α → Machine → Prop)
    (p : Supervising α) (s : Machine) : Prop :=
  Looping.Does (worldUntil setting deadline) (fun _ t => Retained limits input t) stuck post p s

theorem quiet_call {q : Syscall} (hq : q.Quiet) (hs : Retained limits input s) :
    Supervises setting deadline limits input stuck
      (fun a t => Retained limits input t ∧ Kept none s t ∧
        ∃ u, Kept none s u ∧ answers setting u q a t ∧ ∀ d ∈ deadline, Ended d t)
      (call q) s := by
  refine Looping.does_call fun a t hworld => ?_
  obtain ⟨⟨u, hlater, hanswer⟩, hended⟩ := hworld
  have hkept := hlater.kept.trans (answers_kept hq hanswer)
  exact ⟨hs.kept hkept, hs.kept hkept, hkept, u, hlater.kept, hanswer, hended⟩

theorem now_call (hs : Retained limits input s) :
    Supervises setting deadline limits input stuck
      (fun (a : Nat) t => Retained limits input t ∧ Kept none s t ∧ a = t.clock)
      (call .now) s := by
  refine (quiet_call (q := .now) trivial hs).mono fun a t h => ?_
  obtain ⟨ht, hkept, u, -, ⟨rfl, hclock⟩, -⟩ := h
  exact ⟨ht, hkept, hclock⟩

theorem sleep_call (hs : Retained limits input s) :
    Supervises setting deadline limits input stuck
      (fun _ t => Retained limits input t ∧ Kept none s t ∧ s.clock + 10 ≤ t.clock)
      (call .sleep) s := by
  refine (quiet_call (q := .sleep) trivial hs).mono fun _ t h => ?_
  obtain ⟨ht, hkept, u, hu, ⟨n, hn, rfl⟩, -⟩ := h
  refine ⟨ht, hkept, ?_⟩
  have hclock := hu.clock
  show s.clock + 10 ≤ u.clock + n
  omega

theorem killGroup_call (group : Pid) (hs : Retained limits input s) :
    Supervises setting deadline limits input stuck
      (fun _ t => Retained limits input t ∧ Kept none s t ∧ group ∈ t.groupsKilled)
      (call (.killGroup group)) s := by
  refine (quiet_call (q := .killGroup group) trivial hs).mono fun _ t h => ?_
  obtain ⟨ht, hkept, u, -, hanswer, -⟩ := h
  cases hanswer
  exact ⟨ht, hkept, List.mem_cons_self⟩

/-- A status is what the command was waited for with, and without one it has not exited. -/
theorem tryWait_call (hs : Retained limits input s) :
    Supervises setting deadline limits input stuck
      (fun (a : Except IoError (Option ExitStatus)) t =>
        Retained limits input t ∧ Kept none s t ∧
          (∀ status, a = .ok (some status) → t.reaped = some status) ∧
          (a = .ok none → ∀ d ∈ deadline, t.clock < d))
      (call .tryWait) s := by
  refine (quiet_call (q := .tryWait) trivial hs).mono fun a t h => ?_
  obtain ⟨ht, hkept, u, -, hanswer, hended⟩ := h
  refine ⟨ht, hkept, ?_⟩
  rcases hanswer with ⟨⟨e, rfl⟩, -⟩ | ⟨status, rfl, hreaped, rfl⟩ |
    ⟨rfl, -, rfl, pid, proc, hchild, hproc, hlive⟩ | ⟨_, _, status, rfl, -, -, -, -, rfl⟩
  · exact ⟨fun _ h => (by cases h), fun h => (by cases h)⟩
  · refine ⟨fun _ h => ?_, fun h => (by cases h)⟩
    cases h
    exact hreaped
  · refine ⟨fun _ h => (by cases h), fun _ d hd => ?_⟩
    by_contra hge
    exact hended d hd (by omega) pid proc hchild hproc hlive
  · refine ⟨fun _ h => ?_, fun h => (by cases h)⟩
    cases h
    rfl

theorem read_call {stream : Stream} {wanted : Nat} (hs : Retained limits input s)
    (hwanted : (s.pipe stream).taken.length + wanted ≤ stream.limit limits + 1) :
    Supervises setting deadline limits input stuck
      (fun (a : Except IoError { chunk : Bytes // chunk.length ≤ wanted }) t =>
        Retained limits input t ∧ Kept (some (.output stream)) s t ∧
          (∀ e, a = .error e → (s.pipe stream).Later (t.pipe stream)) ∧
          ∀ chunk, a = .ok chunk →
            (t.pipe stream).taken = (s.pipe stream).taken ++ chunk.val ∧
            (chunk.val = [] → 0 < wanted → (t.pipe stream).hasWriter = false ∧
              (t.pipe stream).taken = (t.pipe stream).written))
      (call (.read stream wanted)) s := by
  refine Looping.does_call (q := Syscall.read stream wanted) fun a t hworld => ?_
  obtain ⟨⟨u, hlater, hanswer⟩, -⟩ := hworld
  have hu := hlater.kept
  have hpipe := hu.pipe stream (by simp)
  rcases hanswer with ⟨⟨e, rfl⟩, rfl⟩ | ⟨chunk, rfl, htaken, hlast, rfl⟩
  · refine ⟨hs.kept hu, hs.kept hu, hu.mono _, fun _ _ => hpipe, fun _ h => ?_⟩
    cases h
  · have hkept : Kept (some (.output stream)) s (u.setPipe stream { u.pipe stream with
        taken := (u.pipe stream).taken ++ chunk.val }) := by
      refine hu.none_trans ⟨fun other hne => ?_, fun _ => ?_, fun status hr => ?_, ?_, ?_, ?_⟩
      · rw [Machine.pipe_setPipe_of_ne u _ fun heq => hne (by rw [heq])]
        exact .refl _
      all_goals cases stream <;> first | rfl | exact hr
    have hretained : Retained limits input (u.setPipe stream { u.pipe stream with
        taken := (u.pipe stream).taken ++ chunk.val }) := by
      have hsu := hs.kept hu
      refine ⟨fun other => ?_, fun other => ?_, ?_⟩
      · by_cases heq : other = stream
        · subst heq
          rw [Machine.pipe_setPipe]
          exact htaken
        · rw [Machine.pipe_setPipe_of_ne u _ heq]
          exact hsu.taken other
      · by_cases heq : other = stream
        · subst heq
          rw [Machine.pipe_setPipe, hpipe.taken, List.length_append]
          have hchunk := chunk.property
          omega
        · rw [Machine.pipe_setPipe_of_ne u _ heq]
          exact hsu.le other
      · cases stream <;> exact hsu.accepted
    refine ⟨hretained, hretained, hkept, fun _ h => (by cases h), fun _ h => ?_⟩
    cases h
    rw [Machine.pipe_setPipe, hpipe.taken]
    refine ⟨rfl, fun hnil hpos => ?_⟩
    obtain ⟨hwriter, hwritten⟩ := hlast hnil hpos
    refine ⟨hwriter, ?_⟩
    rw [hnil, List.append_nil, ← hpipe.taken]
    exact hwritten

theorem write_call {bytes : Bytes} (hs : Retained limits input s)
    (hbytes : s.accepted ++ bytes <+: input) :
    Supervises setting deadline limits input stuck
      (fun (a : Except IoError { count : Nat // count ≤ bytes.length }) t =>
        Retained limits input t ∧ Kept (some .stdin) s t ∧
          (∀ e, a = .error e → t.accepted = s.accepted) ∧
          ∀ count, a = .ok count → t.accepted = s.accepted ++ bytes.take count.val)
      (call (.write bytes)) s := by
  refine Looping.does_call (q := Syscall.write bytes) fun a t hworld => ?_
  obtain ⟨⟨u, hlater, hanswer⟩, -⟩ := hworld
  have hu := hlater.kept
  have haccepted := hu.accepted (by simp)
  rcases hanswer with ⟨⟨e, rfl⟩, rfl⟩ | ⟨count, rfl, rfl⟩
  · exact ⟨hs.kept hu, hs.kept hu, hu.mono _, fun _ _ => haccepted, fun _ h => (by cases h)⟩
  · have hsu := hs.kept hu
    have hretained : Retained limits input
        { u with accepted := u.accepted ++ bytes.take count.val } := by
      refine ⟨hsu.taken, hsu.le, ?_⟩
      show u.accepted ++ bytes.take count.val <+: input
      rw [haccepted]
      exact ((List.prefix_append_right_inj _).mpr (List.take_prefix _ _)).trans hbytes
    refine ⟨hretained, hretained, hu.none_trans ⟨fun _ _ => .refl _, fun h => absurd rfl h,
      fun _ h => h, rfl, List.suffix_rfl, Nat.le_refl _⟩, fun _ h => (by cases h), fun _ h => ?_⟩
    cases h
    exact congrArg (· ++ bytes.take count.val) haccepted

/-! ## Reading a stream -/

namespace Capture

/-- The capture holds all that was read of its stream. -/
structure Holds (c : Capture) (limits : OutputLimits) (s : Machine) : Prop where
  limit : c.limit = c.stream.limit limits
  bytes : c.bytes = (s.pipe c.stream).taken
  ended : c.hasReader = false → (s.pipe c.stream).hasWriter = false ∧
    (s.pipe c.stream).taken = (s.pipe c.stream).written

theorem Holds.kept {c : Capture} {touched : Option Handle} (h : c.Holds limits s)
    (hkept : Kept touched s t) (hne : touched ≠ some (.output c.stream)) : c.Holds limits t where
  limit := h.limit
  bytes := by
    rw [(hkept.pipe c.stream hne).taken]
    exact h.bytes
  ended := by
    intro hreader
    have hpipe := hkept.pipe c.stream hne
    obtain ⟨hwriter, htaken⟩ := h.ended hreader
    obtain ⟨hwriter', hwritten⟩ := hpipe.ended hwriter
    exact ⟨hwriter', by rw [hpipe.taken, htaken, hwritten]⟩

/-- What may still be read, and the end of the stream. -/
def room (c : Capture) : Nat := c.limit + 1 - c.bytes.length + c.hasReader.toNat

/-- Where reading `c` has come to. -/
structure Drained (limits : OutputLimits) (input : Bytes) (s : Machine) (c c' : Capture)
    (t : Machine) : Prop where
  holds : c'.Holds limits t
  stream : c'.stream = c.stream
  retained : Retained limits input t
  kept : Kept (some (.output c.stream)) s t
  room_le : c'.room ≤ c.room

/-- A capture that wants more. -/
def Reading (c : Capture) : Prop := c.hasReader = true ∧ c.bytes.length ≤ c.limit

/-- Every octet that is read is progress, and so is the end of the stream. -/
def Progress (c : Capture) (progressed : Bool) (c' : Capture) : Prop :=
  progressed = true → c'.room < c.room

theorem drainPass_supervises {c c' : Capture} {progressed : Bool}
    (h : Drained limits input s c c' t) (hreading : c'.Reading)
    (hprogress : Progress c progressed c') :
    Supervises setting deadline limits input stuck
      (Looping.AfterPass
        (fun x t' => (Drained limits input s c x.1 t' ∧ x.1.Reading ∧ Progress c x.2 x.1) ∧
          x.1.limit - x.1.bytes.length < c'.limit - c'.bytes.length)
        (fun r t' => Drained limits input s c r.2 t' ∧ (r.1 = .ok true → r.2.room < c.room)))
      (drainPass (c', progressed)) t := by
  obtain ⟨hreader, hlen⟩ := hreading
  have hbytes := h.holds.bytes
  have hlimit := h.holds.limit
  have hroom : c'.room = c'.limit + 1 - c'.bytes.length + 1 := by rw [room, hreader]; rfl
  have hroom_le := h.room_le
  show Supervises setting deadline limits input stuck _
    (call (.read c'.stream (min (c'.limit + 1 - c'.bytes.length) 8192)) >>= _) t
  refine Looping.Does.bind (read_call h.retained ?_) fun a u hread => ?_
  · rw [← hbytes, ← hlimit]
    omega
  obtain ⟨hretained, hkept, herror, hok⟩ := hread
  have hkept' : Kept (some (.output c.stream)) t u := h.stream ▸ hkept
  cases a with
  | error e =>
    have hpipe := herror e rfl
    have hdrained : Drained limits input s c c' u := {
      holds := {
        limit := hlimit
        bytes := by rw [hpipe.taken]; exact hbytes
        ended := fun hclosed => absurd hclosed (by rw [hreader]; decide) }
      stream := h.stream
      retained := hretained
      kept := h.kept.trans hkept'
      room_le := hroom_le }
    show Supervises setting deadline limits input stuck _
      (if e.kind = .wouldBlock then _ else _) u
    by_cases hblock : e.kind = .wouldBlock
    · rw [if_pos hblock]
      refine Looping.does_pure ⟨hdrained, fun hp => hprogress ?_⟩
      exact Except.ok.inj hp
    · rw [if_neg hblock]
      exact Looping.does_pure ⟨hdrained, fun hp => (by cases hp)⟩
  | ok chunk =>
    obtain ⟨htaken, hlast⟩ := hok chunk rfl
    show Supervises setting deadline limits input stuck _
      (if chunk.val = [] then _ else _) u
    by_cases hnil : chunk.val = []
    · rw [if_pos hnil]
      rw [hnil, List.append_nil] at htaken
      have hended := hlast hnil (by omega)
      refine Looping.does_pure ⟨⟨⟨hlimit, ?_, fun _ => hended⟩, h.stream, hretained,
        h.kept.trans hkept', ?_⟩, fun _ => ?_⟩
      · show c'.bytes = (u.pipe c'.stream).taken
        rw [htaken]
        exact hbytes
      · show c'.limit + 1 - c'.bytes.length + 0 ≤ c.room
        omega
      · show c'.limit + 1 - c'.bytes.length + 0 < c.room
        omega
    · rw [if_neg hnil]
      have hpos : 0 < chunk.val.length := List.length_pos_iff.mpr hnil
      have hchunk := chunk.property
      have hroom' : ({ c' with bytes := c'.bytes ++ chunk.val } : Capture).room < c'.room := by
        rw [hroom]
        show c'.limit + 1 - (c'.bytes ++ chunk.val).length + c'.hasReader.toNat < _
        rw [hreader, List.length_append]
        simp only [Bool.toNat_true]
        omega
      have hdrained : Drained limits input s c { c' with bytes := c'.bytes ++ chunk.val } u := {
        holds := {
          limit := hlimit
          bytes := by
            show c'.bytes ++ chunk.val = (u.pipe c'.stream).taken
            exact (congrArg (· ++ chunk.val) hbytes).trans htaken.symm
          ended := fun hclosed => absurd hclosed (by
            show ¬c'.hasReader = false
            rw [hreader]; decide) }
        stream := h.stream
        retained := hretained
        kept := h.kept.trans hkept'
        room_le := by omega }
      show Supervises setting deadline limits input stuck _
        (if c'.limit + 1 ≤ (c'.bytes ++ chunk.val).length then _ else _) u
      by_cases hfull : c'.limit + 1 ≤ (c'.bytes ++ chunk.val).length
      · rw [if_pos hfull]
        exact Looping.does_pure ⟨hdrained, fun _ => Nat.lt_of_lt_of_le hroom' hroom_le⟩
      · rw [if_neg hfull]
        refine Looping.does_pure ⟨⟨hdrained, ⟨hreader, ?_⟩, fun _ =>
          Nat.lt_of_lt_of_le hroom' hroom_le⟩, ?_⟩
        · show (c'.bytes ++ chunk.val).length ≤ c'.limit
          omega
        · show c'.limit - (c'.bytes ++ chunk.val).length < c'.limit - c'.bytes.length
          rw [List.length_append] at hfull ⊢
          omega

theorem drain_supervises {c : Capture} (hc : c.Holds limits s) (hs : Retained limits input s) :
    Supervises setting deadline limits input stuck
      (fun r t => Drained limits input s c r.2 t ∧ (r.1 = .ok true → r.2.room < c.room))
      c.drain s := by
  have hdrained : Drained limits input s c c s := ⟨hc, rfl, hs, .refl _ _, Nat.le_refl _⟩
  unfold drain
  by_cases hclosed : c.hasReader = false
  · rw [if_pos hclosed]
    exact Looping.does_pure ⟨hdrained, fun h => (by cases h)⟩
  · rw [if_neg hclosed]
    by_cases hfull : c.limit + 1 ≤ c.bytes.length
    · rw [if_pos hfull]
      exact Looping.does_pure ⟨hdrained, fun h => (by cases h)⟩
    · rw [if_neg hfull]
      refine Looping.does_loop_of_measure (fun x _ => x.1.limit - x.1.bytes.length)
        (fun x t hx => drainPass_supervises hx.1 hx.2.1 hx.2.2) _
        ⟨hdrained, ⟨Bool.eq_true_of_not_eq_false hclosed, Nat.le_of_lt_succ (Nat.not_le.mp hfull)⟩,
          fun h => (by cases h)⟩ ?_
      show c.limit - c.bytes.length < c.limit + 1 - c.bytes.length
      omega

end Capture

/-! ## Writing the input -/

namespace InputWriter

/-- The command was given the input up to the offset. -/
structure Feeds (w : InputWriter) (input : Bytes) (s : Machine) : Prop where
  accepted : s.accepted = input.take w.offset
  offset_le : w.offset ≤ input.length

theorem Feeds.kept {w : InputWriter} {touched : Option Handle} (h : w.Feeds input s)
    (hkept : Kept touched s t) (hne : touched ≠ some .stdin) : w.Feeds input t :=
  ⟨(hkept.accepted hne).trans h.accepted, h.offset_le⟩

/-- What is still to be written, and the end of the input. -/
def room (w : InputWriter) (input : Bytes) : Nat := input.length - w.offset + w.isOpen.toNat

/-- Where writing from `w` on has come to. -/
structure Written (limits : OutputLimits) (input : Bytes) (s : Machine) (w w' : InputWriter)
    (t : Machine) : Prop where
  feeds : w'.Feeds input t
  retained : Retained limits input t
  kept : Kept (some .stdin) s t
  room_le : w'.room input ≤ w.room input

def Progress (input : Bytes) (w : InputWriter) (progressed : Bool) (w' : InputWriter) : Prop :=
  progressed = true → w'.room input < w.room input

theorem writePass_supervises {w w' : InputWriter} {progressed : Bool}
    (h : Written limits input s w w' t) (hopen : w'.isOpen = true)
    (hprogress : Progress input w progressed w') :
    Supervises setting deadline limits input stuck
      (Looping.AfterPass
        (fun x t' => (Written limits input s w x.1 t' ∧ x.1.isOpen = true ∧
          Progress input w x.2 x.1) ∧ input.length - x.1.offset < input.length - w'.offset)
        (fun r t' => Written limits input s w r.2 t' ∧
          (r.1 = .ok true → r.2.room input < w.room input)))
      (writePass input (w', progressed)) t := by
  have hroom_le := h.room_le
  have hroom : w'.room input = input.length - w'.offset + 1 := by rw [room, hopen]; rfl
  have hshut : ({ w' with isOpen := false } : InputWriter).room input < w.room input := by
    refine Nat.lt_of_lt_of_le ?_ hroom_le
    rw [hroom]
    exact Nat.lt_succ_self _
  show Supervises setting deadline limits input stuck _
    (if w'.offset < input.length then
      call (.write (input.drop w'.offset)) >>= _ else _) t
  by_cases hmore : w'.offset < input.length
  · rw [if_pos hmore]
    refine Looping.Does.bind (write_call h.retained ?_) fun a u hwrite => ?_
    · rw [h.feeds.accepted, List.take_append_drop]
    obtain ⟨hretained, hkept, herror, hok⟩ := hwrite
    cases a with
    | error e =>
      have hfeeds : w'.Feeds input u :=
        ⟨(herror e rfl).trans h.feeds.accepted, h.feeds.offset_le⟩
      have hkept' := h.kept.trans hkept
      show Supervises setting deadline limits input stuck _
        (if e.kind = .wouldBlock then _ else if e.kind = .brokenPipe then _ else _) u
      by_cases hblock : e.kind = .wouldBlock
      · rw [if_pos hblock]
        exact Looping.does_pure ⟨⟨hfeeds, hretained, hkept', hroom_le⟩,
          fun hp => hprogress (Except.ok.inj hp)⟩
      · rw [if_neg hblock]
        by_cases hbroken : e.kind = .brokenPipe
        · rw [if_pos hbroken]
          exact Looping.does_pure ⟨⟨⟨hfeeds.accepted, hfeeds.offset_le⟩, hretained, hkept',
            Nat.le_of_lt hshut⟩, fun _ => hshut⟩
        · rw [if_neg hbroken]
          exact Looping.does_pure ⟨⟨hfeeds, hretained, hkept', hroom_le⟩, fun hp => (by cases hp)⟩
    | ok count =>
      have haccepted := hok count rfl
      have hkept' := h.kept.trans hkept
      show Supervises setting deadline limits input stuck _
        (if count.val = 0 then _ else _) u
      by_cases hzero : count.val = 0
      · rw [if_pos hzero]
        rw [hzero, List.take_zero, List.append_nil] at haccepted
        exact Looping.does_pure ⟨⟨⟨haccepted.trans h.feeds.accepted, h.feeds.offset_le⟩, hretained,
          hkept', hroom_le⟩, fun hp => (by cases hp)⟩
      · rw [if_neg hzero]
        have hcount : count.val ≤ input.length - w'.offset := by
          simpa using count.property
        have hroom' : ({ w' with offset := w'.offset + count.val } : InputWriter).room input <
            w'.room input := by
          rw [hroom]
          show input.length - (w'.offset + count.val) + w'.isOpen.toNat < _
          rw [hopen]
          simp only [Bool.toNat_true]
          omega
        have hfeeds : ({ w' with offset := w'.offset + count.val } : InputWriter).Feeds input u := by
          refine ⟨?_, ?_⟩
          · show u.accepted = input.take (w'.offset + count.val)
            rw [haccepted, h.feeds.accepted, List.take_add]
          · show w'.offset + count.val ≤ input.length
            omega
        have hlt := Nat.lt_of_lt_of_le hroom' hroom_le
        refine Looping.does_pure ⟨⟨⟨hfeeds, hretained, hkept', Nat.le_of_lt hlt⟩, hopen,
          fun _ => hlt⟩, ?_⟩
        show input.length - (w'.offset + count.val) < input.length - w'.offset
        omega
  · rw [if_neg hmore]
    exact Looping.does_pure ⟨⟨⟨h.feeds.accepted, h.feeds.offset_le⟩, h.retained, h.kept,
      Nat.le_of_lt hshut⟩, fun _ => hshut⟩

theorem writeInput_supervises {w : InputWriter} (hw : w.Feeds input s)
    (hs : Retained limits input s) :
    Supervises setting deadline limits input stuck
      (fun r t => Written limits input s w r.2 t ∧
        (r.1 = .ok true → r.2.room input < w.room input))
      (w.writeInput input) s := by
  have hwritten : Written limits input s w w s := ⟨hw, hs, .refl _ _, Nat.le_refl _⟩
  unfold writeInput
  by_cases hshut : w.isOpen = false
  · rw [if_pos hshut]
    exact Looping.does_pure ⟨hwritten, fun h => (by cases h)⟩
  · rw [if_neg hshut]
    exact Looping.does_loop_of_measure (fun x _ => input.length - x.1.offset)
      (fun x t hx => writePass_supervises hx.1 hx.2.1 hx.2.2) _
      ⟨hwritten, Bool.eq_true_of_not_eq_false hshut, fun h => (by cases h)⟩ (Nat.lt_succ_self _)

end InputWriter

/-! ## One pass of the supervisor -/

namespace Supervision

/-- What the supervisor knows holds of the machine. -/
structure Inv (limits : OutputLimits) (input : Bytes) (group : Pid) (s : Supervision)
    (t : Machine) : Prop where
  stdout : s.stdout.Holds limits t
  stdout_stream : s.stdout.stream = .stdout
  stderr : s.stderr.Holds limits t
  stderr_stream : s.stderr.stream = .stderr
  stdin : s.stdin.Feeds input t
  retained : Retained limits input t
  child : t.child = some group
  reaped : ∀ status, s.status = some status → t.reaped = some status
  started : ∀ started, s.directExit = some started → started ≤ t.clock
  status_none : s.status = none ↔ s.directExit = none

theorem Inv.kept {x : Supervision} (h : x.Inv limits input group s) (ht : Retained limits input t)
    (hkept : Kept none s t) : x.Inv limits input group t where
  stdout := h.stdout.kept hkept (by simp)
  stdout_stream := h.stdout_stream
  stderr := h.stderr.kept hkept (by simp)
  stderr_stream := h.stderr_stream
  stdin := h.stdin.kept hkept (by simp)
  retained := ht
  child := hkept.child.trans h.child
  reaped status hstatus := hkept.reaped status (h.reaped status hstatus)
  started t₀ hstarted := Nat.le_trans (h.started t₀ hstarted) hkept.clock
  status_none := h.status_none

/-- What is still to be read and written. -/
def room (s : Supervision) (input : Bytes) : Nat :=
  s.stdout.room + s.stderr.room + s.stdin.room input

/-- How long the loop may still wait: for the command, and then for the streams. -/
def patience (deadline : Nat) (s : Supervision) (t : Machine) : Nat :=
  match s.directExit with
  | none => deadline - t.clock + pipeCloseGrace + 2
  | some started => started + pipeCloseGrace + 1 - t.clock

def size (deadline : Option Nat) (input : Bytes) (s : Supervision) (t : Machine) : Nat :=
  s.room input + s.patience (deadline.getD 0) t

theorem patience_anti (d : Nat) (x : Supervision) (h : s.clock ≤ t.clock) :
    x.patience d t ≤ x.patience d s := by
  unfold patience
  cases x.directExit with
  | none => show d - t.clock + _ + 2 ≤ d - s.clock + _ + 2; omega
  | some started => show started + _ + 1 - t.clock ≤ started + _ + 1 - s.clock; omega

/-- Time is left to wait. -/
def Waiting (deadline : Option Nat) (s : Supervision) (t : Machine) : Prop :=
  match s.directExit with
  | none => ∀ d ∈ deadline, t.clock < d
  | some started => t.clock < started + pipeCloseGrace

theorem patience_lt {d : Nat} {x : Supervision} (hwaiting : x.Waiting (some d) s)
    (h : s.clock < t.clock) : x.patience d t < x.patience d s := by
  unfold patience
  unfold Waiting at hwaiting
  cases hexit : x.directExit with
  | none =>
    rw [hexit] at hwaiting
    have hlt : s.clock < d := hwaiting d rfl
    show d - t.clock + _ + 2 < d - s.clock + _ + 2
    omega
  | some started =>
    rw [hexit] at hwaiting
    have hlt : s.clock < started + pipeCloseGrace := hwaiting
    show started + _ + 1 - t.clock < started + _ + 1 - s.clock
    omega

/-- Neither stream has gone over its limit. -/
def Within (s : Supervision) : Prop := s.stdout.exceeded = false ∧ s.stderr.exceeded = false

/-- Where the loop is left without a failure. -/
structure Done (s : Supervision) : Prop where
  status : s.status.isSome
  stdout : s.stdout.hasReader = false
  stderr : s.stderr.hasReader = false
  within : s.Within

/-- What a pass from a state of size `n` comes to. -/
abbrev Passed (deadline : Option Nat) (limits : OutputLimits) (input : Bytes) (group : Pid)
    (n : Nat) :
    Pass Supervision (Supervision × Option IoError) → Machine → Prop :=
  Looping.AfterPass
    (fun x t => x.Inv limits input group t ∧ (deadline.isSome → x.size deadline input t < n))
    (fun r t => r.1.Inv limits input group t ∧ (r.2 = none → r.1.Done))

/-- The size has not grown to over `n`, and is smaller if there was progress. -/
def Below (n : Nat) (progressed : Bool) (size : Nat) : Prop :=
  size ≤ n ∧ (progressed = true → size < n)

theorem Below.anti {n k l : Nat} {progressed : Bool} (h : Below n progressed k) (hle : l ≤ k) :
    Below n progressed l := ⟨Nat.le_trans hle h.1, fun hp => Nat.lt_of_le_of_lt hle (h.2 hp)⟩

theorem size_anti (x : Supervision) (h : s.clock ≤ t.clock) :
    x.size deadline input t ≤ x.size deadline input s :=
  Nat.add_le_add_left (patience_anti _ x h) _

theorem rest_supervises {x : Supervision} {n : Nat} {progressed : Bool}
    (h : x.Inv limits input group s) (hsize : Below n progressed (x.size deadline input s))
    (hwaiting : x.Waiting deadline s) :
    Supervises setting deadline limits input stuck (Passed deadline limits input group n)
      (x.rest progressed) s := by
  cases progressed with
  | true => exact Looping.does_pure ⟨h, fun _ => hsize.2 rfl⟩
  | false =>
    refine Looping.Does.bind (sleep_call h.retained) fun _ t hsleep => ?_
    obtain ⟨ht, hkept, hclock⟩ := hsleep
    refine Looping.does_pure ⟨h.kept ht hkept, fun hsome => ?_⟩
    obtain ⟨d, rfl⟩ := Option.isSome_iff_exists.mp hsome
    have hlt := patience_lt (t := t) hwaiting (by omega)
    exact Nat.lt_of_lt_of_le (Nat.add_lt_add_left hlt _) hsize.1

theorem judge_supervises {program : Text} {x : Supervision} {n : Nat} {progressed : Bool}
    (h : x.Inv limits input group s) (hwithin : x.Within)
    (hsize : Below n progressed (x.size deadline input s))
    (hwaiting : x.directExit = none → ∀ d ∈ deadline, s.clock < d) :
    Supervises setting deadline limits input stuck (Passed deadline limits input group n)
      (x.judge program progressed) s := by
  unfold judge
  by_cases hdone : (x.status.isSome && x.stdout.complete && x.stderr.complete) = true
  · rw [if_pos hdone]
    simp only [Capture.complete, Bool.and_eq_true, Bool.not_eq_true'] at hdone
    obtain ⟨⟨hstatus, hout⟩, herr⟩ := hdone
    exact Looping.does_pure ⟨h, fun _ => ⟨hstatus, hout, herr, hwithin⟩⟩
  · rw [if_neg hdone]
    cases hexit : x.directExit with
    | none =>
      refine rest_supervises h hsize ?_
      unfold Waiting
      rw [hexit]
      exact hwaiting hexit
    | some started =>
      refine Looping.Does.bind (now_call h.retained) fun now t hnow => ?_
      obtain ⟨ht, hkept, hclock⟩ := hnow
      have hinv := h.kept ht hkept
      by_cases hgrace : pipeCloseGrace ≤ now - started
      · rw [if_pos hgrace]
        exact Looping.does_pure ⟨hinv, fun hnone => (by cases hnone)⟩
      · rw [if_neg hgrace]
        refine rest_supervises hinv (hsize.anti (size_anti x hkept.clock)) ?_
        unfold Waiting
        rw [hexit]
        have hstarted := hinv.started started hexit
        show t.clock < started + pipeCloseGrace
        omega

theorem pollStatus_supervises {program : Text} {x : Supervision} {n : Nat} {progressed : Bool}
    (h : x.Inv limits input group s) (hwithin : x.Within)
    (hsize : Below n progressed (x.size deadline input s)) :
    Supervises setting deadline limits input stuck (Passed deadline limits input group n)
      (x.pollStatus program progressed) s := by
  unfold pollStatus
  cases hstatus : x.status with
  | some status =>
    refine judge_supervises h hwithin hsize fun hexit => ?_
    rw [h.status_none.mpr hexit] at hstatus
    cases hstatus
  | none =>
    refine Looping.Does.bind (tryWait_call h.retained) fun a t hwait => ?_
    obtain ⟨ht, hkept, hsome, hnone⟩ := hwait
    have hinv := h.kept ht hkept
    have hsize' := hsize.anti (size_anti x hkept.clock)
    have hexit := h.status_none.mp hstatus
    cases a with
    | error e => exact Looping.does_pure ⟨hinv, fun hnone => (by cases hnone)⟩
    | ok result =>
      cases result with
      | none => exact judge_supervises hinv hwithin hsize' fun _ => hnone rfl
      | some reaped =>
        refine Looping.Does.bind (now_call ht) fun now u hnow => ?_
        obtain ⟨hu, hkept', rfl⟩ := hnow
        have hinv' := hinv.kept hu hkept'
        have hreaped := hkept'.reaped reaped (hsome reaped rfl)
        refine judge_supervises ⟨hinv'.stdout, hinv'.stdout_stream, hinv'.stderr,
          hinv'.stderr_stream, hinv'.stdin, hu, hinv'.child, ?_, ?_, ?_⟩ hwithin ?_ fun h => (by cases h)
        · intro status hs
          cases hs
          exact hreaped
        · intro started hs
          cases hs
          exact Nat.le_refl _
        · exact ⟨fun h => (by cases h), fun h => (by cases h)⟩
        · have hle := hsize'.1
          have hbefore : x.size deadline input t =
              x.room input + (deadline.getD 0 - t.clock + pipeCloseGrace + 2) := by
            rw [size, patience, hexit]
          have hafter : size deadline input
              { x with status := some reaped, directExit := some u.clock } u =
                x.room input + (u.clock + pipeCloseGrace + 1 - u.clock) := rfl
          rw [hafter]
          rw [hbefore] at hle
          exact ⟨by omega, fun _ => by omega⟩

theorem exceededError_eq_none {program : Text} {x : Supervision}
    (h : (exceededError program limits x.stdout).or
      (exceededError program limits x.stderr) = none) : x.Within := by
  rw [Option.or_eq_none_iff] at h
  obtain ⟨hout, herr⟩ := h
  unfold exceededError at hout herr
  exact ⟨by simpa using hout, by simpa using herr⟩

theorem pass_supervises {program : Text} {x : Supervision} (h : x.Inv limits input group s) :
    Supervises setting deadline limits input stuck
      (Passed deadline limits input group (x.size deadline input s)) (x.pass program limits input) s := by
  unfold pass
  refine Looping.Does.bind (Capture.drain_supervises h.stdout h.retained) fun r₁ t₁ hr₁ => ?_
  obtain ⟨d₁, hprogress₁⟩ := hr₁
  have hkept₁ : Kept (some (.output .stdout)) s t₁ := h.stdout_stream ▸ d₁.kept
  have hinv₁ : ({ x with stdout := r₁.2 } : Supervision).Inv limits input group t₁ := {
    stdout := d₁.holds
    stdout_stream := d₁.stream.trans h.stdout_stream
    stderr := h.stderr.kept hkept₁ (by rw [h.stderr_stream]; decide)
    stderr_stream := h.stderr_stream
    stdin := h.stdin.kept hkept₁ (by decide)
    retained := d₁.retained
    child := hkept₁.child.trans h.child
    reaped := fun status hs => hkept₁.reaped status (h.reaped status hs)
    started := fun started hs => Nat.le_trans (h.started started hs) hkept₁.clock
    status_none := h.status_none }
  obtain ⟨drained₁, stdout⟩ := r₁
  cases drained₁ with
  | error e => exact Looping.does_pure ⟨hinv₁, fun hnone => (by cases hnone)⟩
  | ok first =>
  refine Looping.Does.bind (Capture.drain_supervises hinv₁.stderr hinv₁.retained)
    fun r₂ t₂ hr₂ => ?_
  obtain ⟨d₂, hprogress₂⟩ := hr₂
  have hkept₂ : Kept (some (.output .stderr)) t₁ t₂ := h.stderr_stream ▸ d₂.kept
  have hinv₂ : ({ x with stdout := stdout, stderr := r₂.2 } : Supervision).Inv limits input group t₂ := {
    stdout := hinv₁.stdout.kept hkept₂ (by rw [hinv₁.stdout_stream]; decide)
    stdout_stream := hinv₁.stdout_stream
    stderr := d₂.holds
    stderr_stream := d₂.stream.trans h.stderr_stream
    stdin := hinv₁.stdin.kept hkept₂ (by decide)
    retained := d₂.retained
    child := hkept₂.child.trans hinv₁.child
    reaped := fun status hs => hkept₂.reaped status (hinv₁.reaped status hs)
    started := fun started hs => Nat.le_trans (hinv₁.started started hs) hkept₂.clock
    status_none := h.status_none }
  obtain ⟨drained₂, stderr⟩ := r₂
  cases drained₂ with
  | error e => exact Looping.does_pure ⟨hinv₂, fun hnone => (by cases hnone)⟩
  | ok second =>
  refine Looping.Does.bind (InputWriter.writeInput_supervises hinv₂.stdin hinv₂.retained)
    fun r₃ t₃ hr₃ => ?_
  obtain ⟨d₃, hprogress₃⟩ := hr₃
  have hinv₃ : ({ x with stdout := stdout, stderr := stderr, stdin := r₃.2 } : Supervision).Inv
      limits input group t₃ := {
    stdout := hinv₂.stdout.kept d₃.kept (by simp)
    stdout_stream := hinv₂.stdout_stream
    stderr := hinv₂.stderr.kept d₃.kept (by simp)
    stderr_stream := hinv₂.stderr_stream
    stdin := d₃.feeds
    retained := d₃.retained
    child := d₃.kept.child.trans hinv₂.child
    reaped := fun status hs => d₃.kept.reaped status (hinv₂.reaped status hs)
    started := fun started hs => Nat.le_trans (hinv₂.started started hs) d₃.kept.clock
    status_none := h.status_none }
  obtain ⟨written, stdin⟩ := r₃
  cases written with
  | error e => exact Looping.does_pure ⟨hinv₃, fun hnone => (by cases hnone)⟩
  | ok third =>
  dsimp only
  cases hexceeded : (exceededError program limits stdout).or
      (exceededError program limits stderr) with
  | some e => exact Looping.does_pure ⟨hinv₃, fun hnone => (by cases hnone)⟩
  | none =>
    refine pollStatus_supervises hinv₃ (exceededError_eq_none (x := ⟨stdout, stderr, stdin,
      x.status, x.directExit⟩) hexceeded) ?_
    -- every octet that was read or written has made the room smaller
    have hclock : s.clock ≤ t₃.clock :=
      Nat.le_trans hkept₁.clock (Nat.le_trans hkept₂.clock d₃.kept.clock)
    have hpatience := patience_anti (deadline.getD 0) x hclock
    have hroom₁ : stdout.room ≤ x.stdout.room := d₁.room_le
    have hroom₂ : stderr.room ≤ x.stderr.room := d₂.room_le
    have hroom₃ : stdin.room input ≤ x.stdin.room input := d₃.room_le
    have hroom : x.room input = x.stdout.room + x.stderr.room + x.stdin.room input := rfl
    have hsize : size deadline input ⟨stdout, stderr, stdin, x.status, x.directExit⟩ t₃ =
      stdout.room + stderr.room + stdin.room input + x.patience (deadline.getD 0) t₃ := rfl
    rw [hsize, size, hroom]
    refine ⟨by omega, fun hp => ?_⟩
    simp only [Bool.or_eq_true] at hp
    rcases hp with (rfl | rfl) | rfl
    · have hlt : stdout.room < x.stdout.room := hprogress₁ rfl
      omega
    · have hlt : stderr.room < x.stderr.room := hprogress₂ rfl
      omega
    · have hlt : stdin.room input < x.stdin.room input := hprogress₃ rfl
      omega

end Supervision

/-! ## Cancelling -/

/-- The group of the command was signalled, and the command was waited for, or the error says
that this failed. -/
structure Cancelled (group : Pid) (e : IoError) (t : Machine) : Prop where
  killed : group ∈ t.groupsKilled
  reaped : t.reaped.isSome ∨ "; cleanup failed: ".toList <:+: e.message

theorem asksQuiet_supervises {α : Type} {p : Supervising α}
    (h : Looping.AsksOnly Syscall.Quiet False p) (hs : Retained limits input s) :
    Supervises setting deadline limits input stuck
      (fun _ t => Retained limits input t ∧ Kept none s t) p s := by
  refine (h.does (I := fun t => Retained limits input t ∧ Kept none s t)
    (fun q a u t hq hu hworld => ?_) ⟨hs, .refl _ _⟩ False.elim).mono fun _ _ ht => ht
  obtain ⟨⟨v, hlater, hanswer⟩, -⟩ := hworld
  have hkept := hlater.kept.trans (answers_kept hq hanswer)
  exact ⟨hu.1.kept hkept, hu.1.kept hkept, hu.2.trans hkept⟩

theorem terminateTree_supervises (group : Pid) (hs : Retained limits input s) :
    Supervises setting deadline limits input stuck
      (fun _ t => Retained limits input t ∧ Kept none s t ∧ group ∈ t.groupsKilled)
      (terminateTree group) s := by
  refine Looping.Does.bind (killGroup_call group hs) fun _ t hkill => ?_
  obtain ⟨ht, hkept, hmem⟩ := hkill
  refine Looping.Does.bind (tryWait_call ht) fun a u hwait => ?_
  obtain ⟨hu, hkept', -, -⟩ := hwait
  have hkept'' := hkept.trans hkept'
  have hmem' := hkept'.groupsKilled.subset hmem
  have hkill : Supervises setting deadline limits input stuck
      (fun _ v => Retained limits input v ∧ Kept none s v ∧ group ∈ v.groupsKilled)
      (call .killChild >>= fun _ => pure ()) u := by
    refine Looping.Does.bind (quiet_call (q := .killChild) trivial hu) fun _ v hv => ?_
    obtain ⟨hv, hkeptv, -⟩ := hv
    exact Looping.does_pure ⟨hv, hkept''.trans hkeptv, hkeptv.groupsKilled.subset hmem'⟩
  cases a with
  | error e => exact hkill
  | ok result =>
    cases result with
    | none => exact hkill
    | some status => exact Looping.does_pure ⟨hu, hkept'', hmem'⟩

/-- Waiting ends: every pass sleeps, and the clock reaches the time. -/
theorem reapUntil_supervises (n time : Nat) (hs : Retained limits input s)
    (hstuck : n ≤ time - s.clock → ∀ t, stuck t) :
    Supervises setting deadline limits input stuck
      (fun r t => Retained limits input t ∧ Kept none s t ∧
        ∀ status, r = .ok status → t.reaped = some status) (reapUntil n time) s := by
  refine Looping.does_loop (I := fun _ t => Retained limits input t ∧ Kept none s t) True
    (fun _ t => time - t.clock) (fun _ t ht => ?_) n ⟨hs, .refl _ _⟩
    fun hn _ t _ => hstuck (hn trivial) t
  obtain ⟨ht, hkept⟩ := ht
  refine Looping.Does.bind (tryWait_call ht) fun a u hwait => ?_
  obtain ⟨hu, hkeptu, hsome, -⟩ := hwait
  have hkept' := hkept.trans hkeptu
  cases a with
  | error e => exact Looping.does_pure ⟨hu, hkept', fun _ h => (by cases h)⟩
  | ok result =>
    cases result with
    | some status =>
      refine Looping.does_pure ⟨hu, hkept', fun _ h => ?_⟩
      cases h
      exact hsome status rfl
    | none =>
      refine Looping.Does.bind (now_call hu) fun now v hnow => ?_
      obtain ⟨hv, hkeptv, hclock⟩ := hnow
      by_cases hlate : time ≤ now
      · rw [if_pos hlate]
        exact Looping.does_pure ⟨hv, hkept'.trans hkeptv, fun _ h => (by cases h)⟩
      · rw [if_neg hlate]
        refine Looping.Does.bind (sleep_call hv) fun _ w hsleep => ?_
        obtain ⟨hw, hkeptw, hslept⟩ := hsleep
        refine Looping.does_pure ⟨⟨hw, (hkept'.trans hkeptv).trans hkeptw⟩, fun _ => ?_⟩
        have hle := (hkeptu.trans hkeptv).clock
        show time - w.clock < time - t.clock
        omega

theorem cancel_supervises (n : Nat) (group : Pid) (status : Option ExitStatus) (error : IoError)
    (hs : Retained limits input s) (hstatus : ∀ reaped, status = some reaped →
      s.reaped = some reaped) (hstuck : n ≤ postCancelTimeout → ∀ t, stuck t) :
    Supervises setting deadline limits input stuck
      (fun r t => Retained limits input t ∧ Kept none s t ∧
        ∃ e, r = .error e ∧ Cancelled group e t) (cancel n group status error) s := by
  refine Looping.Does.bind (terminateTree_supervises group hs) fun _ t hkill => ?_
  obtain ⟨ht, hkept, hmem⟩ := hkill
  cases status with
  | some reaped =>
    refine Looping.does_pure ⟨ht, hkept, error, rfl, hmem, .inl ?_⟩
    rw [hkept.reaped reaped (hstatus reaped rfl)]
    rfl
  | none =>
    refine Looping.Does.bind (now_call ht) fun start u hnow => ?_
    obtain ⟨hu, hkeptu, hclock⟩ := hnow
    refine Looping.Does.bind (reapUntil_supervises n (start + postCancelTimeout) hu fun hn =>
      hstuck (by omega)) fun cleanup v hreap => ?_
    obtain ⟨hv, hkeptv, hreaped⟩ := hreap
    have hkept' := (hkept.trans hkeptu).trans hkeptv
    refine Looping.does_pure ⟨hv, hkept', _, rfl,
      (hkeptu.trans hkeptv).groupsKilled.subset hmem, ?_⟩
    cases cleanup with
    | ok status =>
      refine .inl ?_
      rw [hreaped status rfl]
      rfl
    | error e => exact .inr ⟨error.message, e.message, rfl⟩

/-! ## A whole run -/

/-- Nothing was read or written yet. -/
structure Untouched (child : Option Pid) (s : Machine) : Prop where
  child : s.child = child
  taken : ∀ stream, (s.pipe stream).taken = []
  accepted : s.accepted = []

/-- Nothing was spawned yet. -/
structure Ready (s : Machine) : Prop extends Untouched none s where
  reaped : s.reaped = none

theorem Untouched.kept {child : Option Pid} (h : Untouched child s) (hkept : Kept none s t) :
    Untouched child t where
  child := hkept.child.trans h.child
  taken stream := by
    rw [(hkept.pipe stream (by simp)).taken]
    exact h.taken stream
  accepted := (hkept.accepted (by simp)).trans h.accepted

theorem Untouched.retained {child : Option Pid} (h : Untouched child s) :
    Retained limits input s where
  taken stream := by
    rw [h.taken stream]
    exact List.nil_prefix
  le stream := by
    rw [h.taken stream]
    exact Nat.zero_le _
  accepted := by
    rw [h.accepted]
    exact List.nil_prefix

/-- All that was written to a stream, and the end of it. -/
structure Whole (limits : OutputLimits) (stream : Stream) (bytes : Bytes) (t : Machine) : Prop where
  all : bytes = (t.pipe stream).written
  ended : (t.pipe stream).hasWriter = false
  within : bytes.length ≤ stream.limit limits

/-- A success: the status that the command was waited for with, and both streams whole. -/
structure Faithful (limits : OutputLimits) (group : Pid) (output : Output) (t : Machine) :
    Prop where
  status : t.reaped = some output.status
  stdout : Whole limits .stdout output.stdout t
  stderr : Whole limits .stderr output.stderr t
  killed : group ∈ t.groupsKilled

/-- What the result says of the command that was spawned as `group`. -/
def Reported (limits : OutputLimits) (group : Pid) (result : Except IoError Output)
    (t : Machine) : Prop :=
  (∀ output, result = .ok output → Faithful limits group output t) ∧
    ∀ e, result = .error e → Cancelled group e t

theorem Whole.kept {stream : Stream} {bytes : Bytes} (h : Whole limits stream bytes s)
    (hkept : Kept none s t) : Whole limits stream bytes t := by
  obtain ⟨hended, hwritten⟩ := (hkept.pipe stream (by simp)).ended h.ended
  exact ⟨h.all.trans hwritten.symm, hended, h.within⟩

theorem Faithful.kept {group : Pid} {output : Output} (h : Faithful limits group output s)
    (hkept : Kept none s t) : Faithful limits group output t :=
  ⟨hkept.reaped _ h.status, h.stdout.kept hkept, h.stderr.kept hkept,
    hkept.groupsKilled.subset h.killed⟩

theorem Cancelled.kept {group : Pid} {e : IoError} (h : Cancelled group e s)
    (hkept : Kept none s t) : Cancelled group e t := by
  refine ⟨hkept.groupsKilled.subset h.killed, h.reaped.imp_left fun hs => ?_⟩
  obtain ⟨status, hstatus⟩ := Option.isSome_iff_exists.mp hs
  rw [hkept.reaped status hstatus]
  rfl

theorem Reported.kept {group : Pid} {result : Except IoError Output}
    (h : Reported limits group result s) (hkept : Kept none s t) :
    Reported limits group result t :=
  ⟨fun output heq => (h.1 output heq).kept hkept, fun e heq => (h.2 e heq).kept hkept⟩

theorem Capture.Holds.whole {c : Capture} (h : c.Holds limits s) (hreader : c.hasReader = false)
    (hexceeded : c.exceeded = false) : Whole limits c.stream c.bytes s := by
  obtain ⟨hended, htaken⟩ := h.ended hreader
  refine ⟨h.bytes.trans htaken, hended, ?_⟩
  rw [exceeded, decide_eq_false_iff_not, Nat.not_lt, h.limit] at hexceeded
  exact hexceeded

theorem conclude_supervises (n : Nat) (group : Pid) {x : Supervision} {failure : Option IoError}
    (h : x.Inv limits input group s) (hdone : failure = none → x.Done)
    (hstuck : n ≤ postCancelTimeout → ∀ t, stuck t) :
    Supervises setting deadline limits input stuck
      (fun r t => Retained limits input t ∧ Kept none s t ∧ Reported limits group r t)
      (conclude n group x failure) s := by
  cases failure with
  | some error =>
    refine (cancel_supervises n group x.status error h.retained h.reaped hstuck).mono
      fun r t hcancel => ?_
    obtain ⟨ht, hkept, e, rfl, hcancelled⟩ := hcancel
    refine ⟨ht, hkept, fun _ heq => (by cases heq), fun _ heq => ?_⟩
    cases heq
    exact hcancelled
  | none =>
    refine Looping.Does.bind (killGroup_call group h.retained) fun _ t hkill => ?_
    obtain ⟨ht, hkept, hmem⟩ := hkill
    have hinv := h.kept ht hkept
    obtain ⟨hstatus, hout, herr, hwithinOut, hwithinErr⟩ := hdone rfl
    obtain ⟨status, hstatus⟩ := Option.isSome_iff_exists.mp hstatus
    rw [hstatus]
    have hwholeOut := hinv.stdout.whole hout hwithinOut
    have hwholeErr := hinv.stderr.whole herr hwithinErr
    rw [hinv.stdout_stream] at hwholeOut
    rw [hinv.stderr_stream] at hwholeErr
    refine Looping.does_pure ⟨ht, hkept, fun _ heq => ?_, fun _ heq => (by cases heq)⟩
    cases heq
    exact ⟨hinv.reaped status hstatus, hwholeOut, hwholeErr, hmem⟩

/-- Passes that are enough when the command has exited by the time `d`. -/
def enoughPasses (d : Nat) (limits : OutputLimits) (input : Bytes) : Nat :=
  limits.stdout + limits.stderr + input.length + d + pipeCloseGrace + postCancelTimeout + 8

/-- What may be left to show where a loop has run out of its passes. -/
def OutOfPasses (n : Nat) (deadline : Option Nat) (limits : OutputLimits) (input : Bytes) : Prop :=
  ∀ d ∈ deadline, n < enoughPasses d limits input

variable {n : Nat} {short : Prop}

theorem outOfPasses_of_le (h : n ≤ postCancelTimeout) : OutOfPasses n deadline limits input := by
  intro d _
  unfold enoughPasses
  omega

/-- The first state of the loop. -/
def Supervision.start (limits : OutputLimits) (input : Bytes) : Supervision :=
  ⟨⟨true, [], limits.stdout, .stdout⟩, ⟨true, [], limits.stderr, .stderr⟩, ⟨!input.isEmpty, 0⟩,
    none, none⟩

theorem Supervision.inv_start {group : Pid} (h : Untouched (some group) s) :
    (Supervision.start limits input).Inv limits input group s where
  stdout := ⟨rfl, (h.taken .stdout).symm, fun h => (by cases h)⟩
  stdout_stream := rfl
  stderr := ⟨rfl, (h.taken .stderr).symm, fun h => (by cases h)⟩
  stderr_stream := rfl
  stdin := ⟨h.accepted, Nat.zero_le _⟩
  retained := h.retained
  child := h.child
  reaped _ h := by cases h
  started _ h := by cases h
  status_none := ⟨fun _ => rfl, fun _ => rfl⟩

theorem Supervision.size_start_lt {d : Nat} (hn : n ≤ (Supervision.start limits input).size (some d)
    input s) : n < enoughPasses d limits input := by
  have hsize : (Supervision.start limits input).size (some d) input s =
    limits.stdout + 1 - 0 + 1 + (limits.stderr + 1 - 0 + 1) +
      (input.length - 0 + (!input.isEmpty).toNat) + (d - s.clock + pipeCloseGrace + 2) := rfl
  have hopen : (!input.isEmpty).toNat ≤ 1 := Bool.toNat_le _
  unfold enoughPasses
  omega

/-- The loop ends where the command does: each pass reads, writes or waits. -/
theorem loop_supervises {program : Text} {group : Pid} (h : Untouched (some group) s)
    (hstuck : OutOfPasses n deadline limits input → ∀ t, stuck t) :
    Supervises setting deadline limits input stuck
      (fun r t => r.1.Inv limits input group t ∧ (r.2 = none → r.1.Done))
      (Looping.loop (Supervision.pass program limits input) n (Supervision.start limits input))
      s := by
  refine Looping.does_loop deadline.isSome (Supervision.size deadline input)
    (fun x t hx => Supervision.pass_supervises hx) n (Supervision.inv_start h)
    fun hn x t _ => hstuck (fun d hd => ?_) t
  cases hd
  exact Supervision.size_start_lt (hn rfl)

theorem setNonblockingAll_asks {P : Syscall → Prop} (h : ∀ handle, P (.setNonblocking handle))
    (handles : List Handle) : Looping.AsksOnly P short (setNonblockingAll handles) := by
  induction handles with
  | nil => exact Looping.asksOnly_pure _
  | cons handle rest ih =>
    refine Looping.AsksOnly.bind (Looping.asksOnly_call (h handle)) fun a => ?_
    cases a with
    | error e => exact Looping.asksOnly_pure _
    | ok _ => exact ih

/-- The limits have room for the octet behind them. -/
structure ValidLimits (limits : OutputLimits) : Prop where
  stdout : (checkedAdd limits.stdout 1).isSome
  stderr : (checkedAdd limits.stderr 1).isSome

theorem validLimits_of_validate {input : Option Bytes}
    (h : validateLimits limits input = .ok ()) : ValidLimits limits := by
  unfold validateLimits at h
  by_cases hout : (checkedAdd limits.stdout 1).isNone = true
  · rw [if_pos hout] at h
    cases h
  · rw [if_neg hout] at h
    by_cases herr : (checkedAdd limits.stderr 1).isNone = true
    · rw [if_pos herr] at h
      cases h
    · rw [Option.isNone_iff_eq_none] at hout herr
      exact ⟨Option.isSome_iff_ne_none.mpr hout, Option.isSome_iff_ne_none.mpr herr⟩

theorem captures_of_valid (h : ValidLimits limits) :
    captures limits =
      .ok (⟨true, [], limits.stdout, .stdout⟩, ⟨true, [], limits.stderr, .stderr⟩) := by
  have hout := Option.isNone_eq_false_iff.mpr h.stdout
  have herr := Option.isNone_eq_false_iff.mpr h.stderr
  simp only [captures, Capture.new, hout, herr]
  rfl

theorem supervise_supervises {program : Text} {bytes : Option Bytes} {group : Pid}
    (h : Untouched (some group) s) (hvalid : ValidLimits limits)
    (hstuck : OutOfPasses n deadline limits (bytes.getD []) → ∀ t, stuck t) :
    Supervises setting deadline limits (bytes.getD []) stuck
      (fun r t => Retained limits (bytes.getD []) t ∧ t.child = some group ∧
        Reported limits group r t)
      (supervise n program limits bytes group) s := by
  have hcancel : n ≤ postCancelTimeout → ∀ t, stuck t := fun hn => hstuck (outOfPasses_of_le hn)
  refine Looping.Does.bind (asksQuiet_supervises (setNonblockingAll_asks (fun _ => trivial) _) h.retained)
    fun a t hset => ?_
  obtain ⟨ht, hkept⟩ := hset
  have huntouched := h.kept hkept
  cases a with
  | error e =>
    refine (cancel_supervises n group none e ht (fun _ h => by cases h) hcancel).mono
      fun r u hu => ?_
    obtain ⟨hu, hkeptu, e, rfl, hcancelled⟩ := hu
    refine ⟨hu, hkeptu.child.trans huntouched.child, fun _ heq => (by cases heq), fun _ heq => ?_⟩
    cases heq
    exact hcancelled
  | ok _ =>
    dsimp only
    rw [captures_of_valid hvalid]
    refine Looping.Does.bind (loop_supervises huntouched hstuck) fun r u hu => ?_
    obtain ⟨hinv, hdone⟩ := hu
    refine (conclude_supervises n group hinv hdone hcancel).mono fun r v hv => ?_
    obtain ⟨hv, hkeptv, hreported⟩ := hv
    exact ⟨hv, hkeptv.child.trans hinv.child, hreported⟩

/-! ## The scope around a command -/

open Looping in
theorem directChildrenFrom_asks (ownPid : Pid) (entries : List (Except IoError Bytes))
    (children : Finset Int) :
    AsksOnly Syscall.Quiet short (directChildrenFrom ownPid entries children) := by
  induction entries generalizing children with
  | nil => exact asksOnly_pure _
  | cons entry rest ih =>
    cases entry with
    | error e =>
      unfold directChildrenFrom
      by_cases h : processEntryDisappeared e = true
      · rw [if_pos h]
        exact ih children
      · rw [if_neg h]
        exact asksOnly_pure _
    | ok name =>
      unfold directChildrenFrom
      cases (fromUtf8 name).bind parseI32 with
      | none => exact ih children
      | some pid =>
        refine AsksOnly.bind (asksOnly_call (q := Syscall.readStat name) trivial) fun a => ?_
        cases a with
        | error e =>
          dsimp only
          by_cases h : processEntryDisappeared e = true
          · rw [if_pos h]
            exact ih children
          · rw [if_neg h]
            exact asksOnly_pure _
        | ok stat =>
          dsimp only
          cases parentOfStat stat with
          | error e => exact asksOnly_pure _
          | ok parent => exact ih _

open Looping in
theorem directChildren_asks (ownPid : Pid) :
    AsksOnly Syscall.Quiet short (directChildren ownPid) := by
  refine AsksOnly.bind (asksOnly_call (q := Syscall.readDir) trivial) fun a => ?_
  cases a with
  | error e => exact asksOnly_pure _
  | ok entries => exact directChildrenFrom_asks ownPid entries ∅

namespace SubreaperScope

open Looping

theorem measure_asks (ownPid : Pid) (wasEnabled : Bool) :
    AsksOnly Syscall.Quiet short (measure ownPid wasEnabled) := by
  refine AsksOnly.bind (directChildren_asks ownPid) fun a => ?_
  cases a with
  | error e => exact asksOnly_pure _
  | ok baseline =>
    refine AsksOnly.bind (asksOnly_call (q := Syscall.ownGroup) trivial) fun a => ?_
    cases a <;> exact asksOnly_pure _

theorem enter_asks (ownPid : Pid) : AsksOnly Syscall.Quiet short (enter ownPid) := by
  refine AsksOnly.bind (asksOnly_call (q := Syscall.childSubreaper) trivial) fun a => ?_
  cases a with
  | error e => exact asksOnly_pure _
  | ok enabled =>
    cases enabled with
    | true => exact measure_asks ownPid true
    | false =>
      refine AsksOnly.bind (asksOnly_call (q := Syscall.setChildSubreaper true) trivial)
        fun a => ?_
      cases a with
      | error e => exact asksOnly_pure _
      | ok _ => exact measure_asks ownPid false

theorem drop_asks (scope : SubreaperScope) : AsksOnly Syscall.Quiet short scope.drop := by
  unfold drop
  cases scope.wasEnabled with
  | true => exact asksOnly_pure _
  | false =>
    exact AsksOnly.bind (asksOnly_call (q := Syscall.setChildSubreaper false) trivial)
      fun _ => asksOnly_pure _

theorem adopted_asks (scope : SubreaperScope) (children : List Int) :
    AsksOnly Syscall.Quiet short (scope.adopted children) := by
  induction children with
  | nil => exact asksOnly_pure _
  | cons raw rest ih =>
    unfold adopted
    cases pidFromRaw raw with
    | none => exact ih
    | some pid =>
      refine AsksOnly.bind (asksOnly_call (q := Syscall.getpgid pid) trivial) fun a => ?_
      cases a with
      | error e => exact ih
      | ok group => exact AsksOnly.bind ih fun _ => asksOnly_pure _

theorem killAll_asks {P : Syscall → Prop} {pids : List Pid}
    (h : ∀ pid ∈ pids, P (.killProcess pid)) : AsksOnly P short (killAll pids) := by
  induction pids with
  | nil => exact asksOnly_pure _
  | cons pid rest ih =>
    exact AsksOnly.bind (asksOnly_call (h pid List.mem_cons_self)) fun _ =>
      ih fun q hq => h q (List.mem_cons_of_mem _ hq)

theorem waitAll_asks {P : Syscall → Prop} (h : ∀ pid, P (.waitpid pid)) (pids : List Pid) :
    AsksOnly P short (waitAll pids) := by
  induction pids with
  | nil => exact asksOnly_pure _
  | cons pid rest ih =>
    refine AsksOnly.bind (asksOnly_call (h pid)) fun a => ?_
    cases a with
    | ok _ => exact ih
    | error e =>
      dsimp only
      by_cases h : e.rawOsError = some .child
      · rw [if_pos h]
        exact ih
      · rw [if_neg h]
        exact asksOnly_pure _

/-- Between the passes the clock runs, so that the passes end. -/
theorem terminateAndReap_supervises (scope : SubreaperScope) (ownPid : Pid)
    (hs : Retained limits input s) (hstuck : n ≤ postCancelTimeout → ∀ t, stuck t) :
    Supervises setting deadline limits input stuck
      (fun _ t => Retained limits input t ∧ Kept none s t)
      (scope.terminateAndReap n ownPid) s := by
  refine Does.bind (now_call hs) fun start t hnow => ?_
  obtain ⟨ht, hkept, hstart⟩ := hnow
  refine does_loop (I := fun _ u => Retained limits input u ∧ Kept none s u) True
    (fun _ u => start + postCancelTimeout - u.clock) (fun _ u hu => ?_) n ⟨ht, hkept⟩
    fun hn _ u _ => hstuck (by have := hn trivial; omega) u
  obtain ⟨hu, hkeptu⟩ := hu
  refine Does.bind (asksQuiet_supervises (directChildren_asks ownPid) hu) fun a v hv => ?_
  obtain ⟨hv, hkeptv⟩ := hv
  cases a with
  | error e => exact does_pure ⟨hv, hkeptu.trans hkeptv⟩
  | ok children =>
  refine Does.bind (asksQuiet_supervises (adopted_asks scope _) hv) fun adopted w hw => ?_
  obtain ⟨hw, hkeptw⟩ := hw
  have hkeptw' := (hkeptu.trans hkeptv).trans hkeptw
  by_cases hnil : adopted = []
  · rw [if_pos hnil]
    exact does_pure ⟨hw, hkeptw'⟩
  rw [if_neg hnil]
  refine Does.bind (asksQuiet_supervises (killAll_asks fun _ _ => trivial) hw) fun _ x hx => ?_
  obtain ⟨hx, hkeptx⟩ := hx
  refine Does.bind (asksQuiet_supervises (waitAll_asks (fun _ => trivial) adopted) hx) fun a y hy => ?_
  obtain ⟨hy, hkepty⟩ := hy
  cases a with
  | error e => exact does_pure ⟨hy, (hkeptw'.trans hkeptx).trans hkepty⟩
  | ok _ =>
  refine Does.bind (now_call hy) fun now z hz => ?_
  obtain ⟨hz, hkeptz, hclock⟩ := hz
  have hkeptz' := ((hkeptw'.trans hkeptx).trans hkepty).trans hkeptz
  by_cases hlate : start + postCancelTimeout ≤ now
  · rw [if_pos hlate]
    exact does_pure ⟨hz, hkeptz'⟩
  rw [if_neg hlate]
  refine Does.bind (sleep_call hz) fun _ r hr => ?_
  obtain ⟨hr, hkeptr, hslept⟩ := hr
  refine does_pure ⟨⟨hr, hkeptz'.trans hkeptr⟩, fun _ => ?_⟩
  have hle : u.clock ≤ z.clock :=
    ((((hkeptv.trans hkeptw).trans hkeptx).trans hkepty).trans hkeptz).clock
  show start + postCancelTimeout - r.clock < start + postCancelTimeout - u.clock
  omega

end SubreaperScope

theorem spawn_call (h : Untouched none s) :
    Supervises setting deadline limits input stuck
      (fun (a : Except IoError Pid) t => (∀ group, a = .ok group → Untouched (some group) t) ∧
        ∀ e, a = .error e → Untouched none t) (call .spawn) s := by
  refine Looping.does_call (q := Syscall.spawn) fun a t hworld => ?_
  obtain ⟨⟨u, hlater, hanswer⟩, -⟩ := hworld
  have hu := h.kept hlater.kept
  rcases hanswer with ⟨pid, comm, rfl, -, -, -, rfl⟩ | ⟨⟨e, rfl⟩, rfl⟩
  · have hspawned : Untouched (some pid) { u.setProc pid (some ⟨comm, setting.self, pid, none,
        u.births, true⟩) with
          used := fun q => u.used q ∨ q = pid, births := u.births + 1, child := some pid } :=
      ⟨rfl, hu.taken, hu.accepted⟩
    refine ⟨hspawned.retained, fun _ heq => ?_, fun _ heq => (by cases heq)⟩
    cases heq
    exact hspawned
  · exact ⟨hu.retained, fun _ heq => (by cases heq), fun _ _ => hu⟩

/-- The result, whether or not the command was spawned. -/
structure Accounted (limits : OutputLimits) (result : Except IoError Output) (t : Machine) :
    Prop where
  started : ∀ output, result = .ok output → t.child.isSome
  reported : ∀ group, t.child = some group → Reported limits group result t

theorem Accounted.kept {result : Except IoError Output} (h : Accounted limits result s)
    (hkept : Kept none s t) : Accounted limits result t := by
  refine ⟨fun output heq => ?_, fun group hgroup => ?_⟩
  · rw [hkept.child]
    exact h.started output heq
  · rw [hkept.child] at hgroup
    exact (h.reported group hgroup).kept hkept

theorem accounted_error (e : IoError) (h : t.child = none) :
    Accounted limits (.error e) t := by
  refine ⟨fun _ heq => (by cases heq), fun group hgroup => ?_⟩
  rw [h] at hgroup
  cases hgroup

theorem Reported.withCleanup {group : Pid} {result : Except IoError Output}
    (h : Reported limits group result t) (cleanup : Except IoError Unit) :
    Reported limits group (withCleanup result cleanup) t := by
  cases cleanup with
  | ok _ => cases result <;> exact h
  | error e' =>
    refine ⟨fun _ heq => (by cases result <;> cases heq), fun e heq => ?_⟩
    cases result with
    | ok output =>
      have hfaithful := h.1 output rfl
      refine ⟨hfaithful.killed, .inl ?_⟩
      rw [hfaithful.status]
      rfl
    | error primary =>
      obtain ⟨hkilled, hreaped⟩ := h.2 primary rfl
      cases heq
      refine ⟨hkilled, hreaped.imp_right fun hinfix => ?_⟩
      exact hinfix.trans ⟨[], "; descendant cleanup failed: ".toList ++ e'.message,
        (List.append_assoc _ _ _).symm⟩

theorem Accounted.withCleanup {result : Except IoError Output} (h : Accounted limits result t)
    (cleanup : Except IoError Unit) : Accounted limits (withCleanup result cleanup) t := by
  refine ⟨fun output heq => ?_, fun group hgroup => (h.reported group hgroup).withCleanup cleanup⟩
  cases result with
  | ok output' => exact h.started output' rfl
  | error e => cases cleanup <;> cases heq

theorem outputInner_supervises {program : Text} {bytes : Option Bytes} (h : Untouched none s)
    (hvalid : ValidLimits limits)
    (hstuck : OutOfPasses n deadline limits (bytes.getD []) → ∀ t, stuck t) :
    Supervises setting deadline limits (bytes.getD []) stuck
      (fun r t => Retained limits (bytes.getD []) t ∧ Accounted limits r t)
      (outputInner n program limits bytes) s := by
  refine Looping.Does.bind (spawn_call h) fun a t hspawn => ?_
  obtain ⟨hok, herror⟩ := hspawn
  cases a with
  | error e =>
    have ht := herror e rfl
    exact Looping.does_pure ⟨ht.retained, accounted_error e ht.child⟩
  | ok group =>
    refine (supervise_supervises (hok group rfl) hvalid hstuck).mono fun r u hu => ?_
    obtain ⟨hu, hchild, hreported⟩ := hu
    refine ⟨hu, fun _ _ => ?_, fun group' hgroup => ?_⟩
    · rw [hchild]
      rfl
    · rw [hchild] at hgroup
      cases hgroup
      exact hreported

/-- Whatever happens, the scope is left behind the command. -/
theorem output_supervises (ownPid : Pid) (program : Text) (bytes : Option Bytes) (h : Ready s)
    (hstuck : OutOfPasses n deadline limits (bytes.getD []) → ∀ t, stuck t) :
    Supervises setting deadline limits (bytes.getD []) stuck (Accounted limits)
      (output n ownPid program limits bytes) s := by
  unfold output
  cases hvalidate : validateLimits limits bytes with
  | error e => exact Looping.does_pure (accounted_error e h.child)
  | ok _ =>
  have hvalid := validLimits_of_validate hvalidate
  refine Looping.Does.bind (asksQuiet_supervises (SubreaperScope.enter_asks ownPid) h.retained)
    fun a t ht => ?_
  obtain ⟨ht, hkept⟩ := ht
  have huntouched := h.toUntouched.kept hkept
  cases a with
  | error e => exact Looping.does_pure (accounted_error e huntouched.child)
  | ok scope =>
  refine Looping.Does.bind (outputInner_supervises huntouched hvalid hstuck) fun r u hu => ?_
  obtain ⟨hu, haccounted⟩ := hu
  refine Looping.Does.bind (SubreaperScope.terminateAndReap_supervises scope ownPid hu fun hn =>
    hstuck (outOfPasses_of_le hn)) fun cleanup v hv => ?_
  obtain ⟨hv, hkeptv⟩ := hv
  refine Looping.Does.bind (asksQuiet_supervises scope.drop_asks hv) fun _ w hw => ?_
  obtain ⟨hw, hkeptw⟩ := hw
  exact Looping.does_pure (((haccounted.kept hkeptv).kept hkeptw).withCleanup cleanup)

/-! ## Results -/

theorem worldUntil_none (setting : Setting) : worldUntil setting none = world setting := by
  funext q s a t
  simp [worldUntil]

/-- Whatever the command and its descendants do, and however long they run: at every moment
no more than the limit and one octet has been read of a stream.  A success comes with the
status of the command and with all that was written to both streams, after they were
closed.  A failure has signalled the command's group and waited for the command, or says why
it could not. -/
theorem output_accounts (n : Nat) (setting : Setting) (program : Text) (limits : OutputLimits)
    (input : Option Bytes) (s : Machine) (h : Ready s) :
    Looping.Does (world setting) (fun _ t => Retained limits (input.getD []) t) (fun _ => True)
      (Accounted limits) (output n setting.self program limits input) s := by
  rw [← worldUntil_none]
  exact output_supervises setting.self program input h fun _ _ => trivial

/-- A machine before a command. -/
def bareMachine : Machine where
  procs _ := none
  used _ := False
  births := 0
  subreaper := false
  child := none
  reaped := none
  stdout := ⟨[], [], true⟩
  stderr := ⟨[], [], true⟩
  accepted := []
  clock := 0
  groupsKilled := []
  killed := []

theorem ready_bareMachine : Ready bareMachine where
  child := rfl
  taken stream := by cases stream <;> rfl
  accepted := rfl
  reaped := rfl

theorem output_accounts_bareMachine :
    Looping.Does (world ⟨7, 7, by decide⟩) (fun _ t => Retained validationOutputLimits [] t) (fun _ => True)
      (Accounted validationOutputLimits) (output 500 7 "cargo".toList validationOutputLimits none)
      bareMachine :=
  output_accounts 500 ⟨7, 7, by decide⟩ "cargo".toList validationOutputLimits none bareMachine ready_bareMachine

/-- When the command has exited by the time `d`, the supervisor comes back, whatever the
descendants do with the streams and however they fork: no loop needs more passes than these. -/
theorem output_returns (n : Nat) (setting : Setting) (program : Text) (limits : OutputLimits)
    (input : Option Bytes) (s : Machine) (d : Nat) (h : Ready s)
    (hn : enoughPasses d limits (input.getD []) ≤ n) :
    Looping.Does (worldUntil setting (some d)) (fun _ t => Retained limits (input.getD []) t)
      (fun _ => False) (Accounted limits) (output n setting.self program limits input) s :=
  output_supervises setting.self program input h fun hout =>
    absurd (hout d rfl) (Nat.not_lt_of_le hn)

theorem output_returns_bareMachine :
    Looping.Does (worldUntil ⟨7, 7, by decide⟩ (some 1000)) (fun _ t => Retained ⟨64, 16⟩ [104, 105] t)
      (fun _ => False) (Accounted ⟨64, 16⟩)
      (output 3500 7 "cat".toList ⟨64, 16⟩ (some [104, 105])) bareMachine :=
  output_returns 3500 ⟨7, 7, by decide⟩ "cat".toList ⟨64, 16⟩ (some [104, 105]) bareMachine 1000
    ready_bareMachine (by decide)

end Tooling
end YamlSigil
