/-
The system below the supervisor of subprocesses.

The supervisor asks by system calls.  Between two of them everything else goes on: the
command and its descendants fork, change their names and groups, write, close their ends of
the pipes and exit, and other threads of the supervisor wait for children of their own.

A process that exits becomes a zombie, and its children go to the nearest ancestor that
adopts.  The supervisor is one when its subreaper flag is set, and a descendant of the
command may have made itself one.  Three things are assumed.  Numbers of processes are not
used again while the supervisor is at work.  A descendant of the command does not join the
group of the supervisor, whose other children live there.  And no other thread waits for a
descendant of the command.
-/
import Mathlib.Logic.Function.Basic
import YamlSigil.Control.Loop
import YamlSigil.Tooling.Io

namespace YamlSigil
namespace Tooling

open YamlSigil.Core Control Format.SemVer

abbrev Pid := Nat

abbrev ExitStatus := Int

/-- The output streams of a command. -/
inductive Stream where
  | stdout
  | stderr
deriving Repr, DecidableEq

/-- The ends of the three pipes that the supervisor holds. -/
inductive Handle where
  | output (stream : Stream)
  | stdin
deriving Repr, DecidableEq

/-! ## System calls -/

inductive Syscall where
  | childSubreaper
  | setChildSubreaper (enabled : Bool)
  | ownGroup
  | readDir
  | readStat (entry : Bytes)
  | spawn
  | setNonblocking (handle : Handle)
  | read (stream : Stream) (wanted : Nat)
  | write (bytes : Bytes)
  | tryWait
  | killChild
  | killGroup (group : Pid)
  | getpgid (pid : Pid)
  | killProcess (pid : Pid)
  | waitpid (pid : Pid)
  | now
  | sleep
deriving Repr, DecidableEq

/-- A read returns at most what was wanted of it, and a write takes at most what it is
given.  The results of signals are not looked at. -/
def Answer : Syscall → Type
  | .childSubreaper => Except IoError Bool
  | .setChildSubreaper _ => Except IoError Unit
  | .ownGroup => Except IoError Pid
  | .readDir => Except IoError (List (Except IoError Bytes))
  | .readStat _ => Except IoError Text
  | .spawn => Except IoError Pid
  | .setNonblocking _ => Except IoError Unit
  | .read _ wanted => Except IoError { chunk : Bytes // chunk.length ≤ wanted }
  | .write bytes => Except IoError { count : Nat // count ≤ bytes.length }
  | .tryWait => Except IoError (Option ExitStatus)
  | .killChild | .killGroup _ | .killProcess _ => Unit
  | .getpgid _ => Except IoError Pid
  | .waitpid _ => Except IoError (Option ExitStatus)
  | .now => Nat
  | .sleep => Unit

/-- A program of the supervisor. -/
abbrev Supervising (α : Type) := Looping Syscall Answer α

def call (q : Syscall) : Supervising (Answer q) := Looping.call q

/-! ## The machine -/

/-- What has been written to a pipe and what has been read from it; `hasWriter` while a writer
is left. -/
structure Pipe where
  written : Bytes
  taken : Bytes
  hasWriter : Bool

structure Proc where
  comm : Text
  parent : Pid
  group : Pid
  zombie : Option ExitStatus
  /-- Processes are numbered as they are born. -/
  birth : Nat
  /-- It descends from the command. -/
  descends : Bool

/-- The supervisor, and the group that it is in. -/
structure Setting where
  self : Pid
  callerGroup : Pid
  self_lt : self < 2 ^ 31

structure Machine where
  procs : Pid → Option Proc
  used : Pid → Prop
  births : Nat
  subreaper : Bool
  /-- The command, once it has been spawned, and the status that was waited for. -/
  child : Option Pid
  reaped : Option ExitStatus
  stdout : Pipe
  stderr : Pipe
  accepted : Bytes
  clock : Nat
  /-- The groups that were signalled, and the processes that were, the command among them. -/
  groupsKilled : List Pid
  killed : List Pid

namespace Machine

def pipe (s : Machine) : Stream → Pipe
  | .stdout => s.stdout
  | .stderr => s.stderr

def setPipe (s : Machine) (stream : Stream) (p : Pipe) : Machine :=
  match stream with
  | .stdout => { s with stdout := p }
  | .stderr => { s with stderr := p }

def setProc (s : Machine) (pid : Pid) (proc : Option Proc) : Machine :=
  { s with procs := Function.update s.procs pid proc }

/-- Every child of `pid` goes to `heir`. -/
def reparent (s : Machine) (pid heir : Pid) : Machine :=
  { s with procs := fun q => (s.procs q).map fun proc =>
      if proc.parent = pid then { proc with parent := heir } else proc }

@[simp] theorem procs_setProc (s : Machine) (pid : Pid) (proc : Option Proc) :
    (s.setProc pid proc).procs pid = proc := Function.update_self _ _ _

theorem procs_setProc_of_ne (s : Machine) {pid q : Pid} (proc : Option Proc) (h : q ≠ pid) :
    (s.setProc pid proc).procs q = s.procs q := Function.update_of_ne h _ _

@[simp] theorem pipe_setPipe (s : Machine) (stream : Stream) (p : Pipe) :
    (s.setPipe stream p).pipe stream = p := by
  cases stream <;> rfl

theorem pipe_setPipe_of_ne (s : Machine) {stream other : Stream} (p : Pipe)
    (h : other ≠ stream) : (s.setPipe stream p).pipe other = s.pipe other := by
  cases stream <;> cases other <;> first | rfl | exact absurd rfl h

/-- `heir` may take over the children of a process that was born as number `birth`. -/
def Heir (setting : Setting) (s : Machine) (birth : Nat) (heir : Pid) : Prop :=
  (s.subreaper = true ∧ heir = setting.self) ∨
    ∃ proc, s.procs heir = some proc ∧ proc.descends = true ∧ proc.zombie = none ∧
      proc.birth < birth

end Machine

/-! ## What goes on between two calls -/

/-- One step of everything but the supervisor. -/
inductive Env (setting : Setting) : Machine → Machine → Prop
  | fork {s : Machine} {pid fresh : Pid} {proc : Proc} (hpid : s.procs pid = some proc)
      (hlive : proc.zombie = none) (hfresh : ¬s.used fresh) (hpos : 0 < fresh)
      (hlt : fresh < 2 ^ 31) :
      Env setting s { s.setProc fresh (some { proc with
        parent := pid, birth := s.births, descends := proc.descends }) with
        used := fun q => s.used q ∨ q = fresh, births := s.births + 1 }
  | rename {s : Machine} {pid : Pid} {proc : Proc} (comm : Text)
      (hpid : s.procs pid = some proc) :
      Env setting s (s.setProc pid (some { proc with comm := comm }))
  | regroup {s : Machine} {pid : Pid} {proc : Proc} (group : Pid)
      (hpid : s.procs pid = some proc)
      (hgroup : proc.descends = true → group ≠ setting.callerGroup) :
      Env setting s (s.setProc pid (some { proc with group := group }))
  | exit {s : Machine} {pid heir : Pid} {proc : Proc} (status : ExitStatus)
      (hpid : s.procs pid = some proc) (hlive : proc.zombie = none) (hself : pid ≠ setting.self)
      (hheir : proc.descends = true → s.subreaper = true → s.Heir setting proc.birth heir) :
      Env setting s ((s.setProc pid (some { proc with zombie := some status })).reparent pid heir)
  | collect {s : Machine} {pid : Pid} {proc : Proc} (hpid : s.procs pid = some proc)
      (hzombie : proc.zombie ≠ none)
      (hparent : proc.descends = true → proc.parent ≠ setting.self) :
      Env setting s (s.setProc pid none)
  | write {s : Machine} (stream : Stream) (bytes : Bytes) (hopen : (s.pipe stream).hasWriter = true) :
      Env setting s (s.setPipe stream { s.pipe stream with
        written := (s.pipe stream).written ++ bytes })
  | close {s : Machine} (stream : Stream) :
      Env setting s (s.setPipe stream { s.pipe stream with hasWriter := false })
  | tick {s : Machine} (n : Nat) : Env setting s { s with clock := s.clock + n }

abbrev Later (setting : Setting) : Machine → Machine → Prop :=
  Relation.ReflTransGen (Env setting)

/-! ## What a call answers -/

/-- A process has disappeared. -/
def processEntryDisappeared (error : IoError) : Bool :=
  error.kind == .notFound || error.rawOsError == some .srch

/-- The line of a process: its number, its name in brackets, its state, its parent, and
fields of digits. -/
def statText (pid : Pid) (proc : Proc) (state rest : Text) : Text :=
  digits pid ++ " (".toList ++ proc.comm ++ ") ".toList ++ state ++ " ".toList ++
    digits proc.parent ++ " ".toList ++ rest

/-- No closing bracket stands in the fields behind the name, and the state is a letter. -/
structure StatFields (state rest : Text) : Prop where
  state_ne_nil : state ≠ []
  state_alpha : ∀ c ∈ state, c.isAlpha = true
  rest_fields : ∀ c ∈ rest, c.isDigit = true ∨ c = '-' ∨ c = ' ' ∨ c = '\n'

/-- What may come back for a call, and the machine behind it.  Calls may fail; where a failure
would say that a process is gone, it is.  A directory is listed while everything goes on, and
a process that is there all the time is listed.  A command that was waited for is not
signalled. -/
def answers (setting : Setting) (s : Machine) : (q : Syscall) → Answer q → Machine → Prop
  | .childSubreaper, a, t => t = s ∧ ∀ enabled, a = Except.ok enabled → enabled = s.subreaper
  | .setChildSubreaper enabled, a, t =>
      (a = Except.ok () ∧ t = { s with subreaper := enabled }) ∨ (∃ e, a = Except.error e) ∧ t = s
  | .ownGroup, a, t => t = s ∧ ∀ group, a = Except.ok group → group = setting.callerGroup
  | .readDir, a, t => Later setting s t ∧ ∀ entries, a = Except.ok entries →
      (∀ pid, (s.procs pid).isSome → (t.procs pid).isSome →
        Except.ok (asBytes (digits pid)) ∈ entries) ∧
      ∀ name raw, Except.ok name ∈ entries → (fromUtf8 name).bind parseI32 = some raw →
        ∃ pid, t.used pid ∧ raw = (pid : Int)
  | .readStat entry, a, t => t = s ∧
      ∀ pid proc, entry = asBytes (digits pid) → s.procs pid = some proc →
      (∀ text, a = Except.ok text → ∃ state rest, StatFields state rest ∧
        text = statText pid proc state rest) ∧
      ∀ e, a = Except.error e → processEntryDisappeared e = false
  | .spawn, a, t => (∃ pid comm, a = Except.ok pid ∧ ¬s.used pid ∧ 0 < pid ∧ pid < 2 ^ 31 ∧
        t = { s.setProc pid (some ⟨comm, setting.self, pid, none, s.births, true⟩) with
          used := fun q => s.used q ∨ q = pid, births := s.births + 1, child := some pid }) ∨
      (∃ e, a = Except.error e) ∧ t = s
  | .setNonblocking _, _, t => t = s
  | .read stream wanted, a, t => (∃ e, a = Except.error e) ∧ t = s ∨
      ∃ chunk, a = Except.ok chunk ∧
        (s.pipe stream).taken ++ chunk.val <+: (s.pipe stream).written ∧
        (chunk.val = [] → 0 < wanted → (s.pipe stream).hasWriter = false ∧
          (s.pipe stream).taken = (s.pipe stream).written) ∧
        t = s.setPipe stream { s.pipe stream with taken := (s.pipe stream).taken ++ chunk.val }
  | .write bytes, a, t => (∃ e, a = Except.error e) ∧ t = s ∨
      ∃ count, a = Except.ok count ∧ t = { s with accepted := s.accepted ++ bytes.take count.val }
  | .tryWait, a, t => (∃ e, a = Except.error e) ∧ t = s ∨
      (∃ status, a = Except.ok (some status) ∧ s.reaped = some status ∧ t = s) ∨
      (a = Except.ok none ∧ s.reaped = none ∧ t = s ∧ ∃ pid proc,
        s.child = some pid ∧ s.procs pid = some proc ∧ proc.zombie = none) ∨
      (∃ pid proc status, a = Except.ok (some status) ∧ s.reaped = none ∧ s.child = some pid ∧
        s.procs pid = some proc ∧ proc.zombie = some status ∧
        t = { s.setProc pid none with reaped := some status })
  | .killChild, _, t => t = { s with
      killed := (if s.reaped.isNone then s.child.toList else []) ++ s.killed }
  | .killGroup group, _, t => t = { s with groupsKilled := group :: s.groupsKilled }
  | .getpgid pid, a, t =>
      t = s ∧ ((∃ proc, s.procs pid = some proc ∧ a = Except.ok proc.group) ∨
        s.procs pid = none ∧ ∃ e, a = Except.error e)
  | .killProcess pid, _, t => t = { s with killed := pid :: s.killed }
  | .waitpid pid, a, t => (∃ e, a = Except.error e) ∧ t = s ∨
      (a = Except.ok none ∧ t = s) ∨
      (∃ proc status, a = Except.ok (some status) ∧ s.procs pid = some proc ∧
        proc.parent = setting.self ∧ proc.zombie = some status ∧ t = s.setProc pid none)
  | .now, a, t => t = s ∧ a = s.clock
  | .sleep, _, t => ∃ n, 10 ≤ n ∧ t = { s with clock := s.clock + n }

/-- Everything else goes on, and then the call is answered. -/
def world (setting : Setting) : World Syscall Answer Machine :=
  fun q s a t => ∃ u, Later setting s u ∧ answers setting u q a t

end Tooling
end YamlSigil
