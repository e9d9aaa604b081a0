/-
The supervisor of subprocesses, as it is on Linux.

It reads both output streams of a command up to a limit each, writes the input, and waits
for the command.  Whatever happens it signals the group of the command, and behind it every
process that the command has left to it.
-/
import Mathlib.Data.Finset.Sort
import YamlSigil.Tooling.Kernel

namespace YamlSigil
namespace Tooling

open YamlSigil.Core Control Format.SemVer

/-! ## Limits -/

/-- Durations are in milliseconds. -/
def pipeCloseGrace : Nat := 250

def postCancelTimeout : Nat := 2000

def maxInputBytes : Nat := 4 * 1024 * 1024

structure OutputLimits where
  stdout : Nat
  stderr : Nat
deriving Repr, DecidableEq

def validationOutputLimits : OutputLimits where
  stdout := 4 * 1024 * 1024
  stderr := 64 * 1024

structure Output where
  status : ExitStatus
  stdout : Bytes
  stderr : Bytes
deriving Repr, DecidableEq

def Stream.label : Stream → Text
  | .stdout => "stdout".toList
  | .stderr => "stderr".toList

def Stream.limit (stream : Stream) (limits : OutputLimits) : Nat :=
  match stream with
  | .stdout => limits.stdout
  | .stderr => limits.stderr

def validateLimits (limits : OutputLimits) (input : Option Bytes) : Except IoError Unit :=
  if (checkedAdd limits.stdout 1).isNone then
    .error (.new .invalidInput "invalid stdout limit".toList)
  else if (checkedAdd limits.stderr 1).isNone then
    .error (.new .invalidInput "invalid stderr limit".toList)
  else if input.any fun bytes => maxInputBytes < bytes.length then
    .error (.new .invalidInput ("subprocess stdin exceeded its ".toList ++ digits maxInputBytes ++
      "-byte limit".toList))
  else .ok ()

def statusPoll (result : Except IoError (Option ExitStatus)) (program : Text) :
    Except IoError (Option ExitStatus) :=
  match result with
  | .ok status => .ok status
  | .error e =>
    .error (.new e.kind ("poll ".toList ++ program ++ " subprocess status: ".toList ++ e.message))

/-! ## Children of the supervisor -/

/-- The second field behind the name, which ends at the last bracket. -/
def parentOfStat (stat : Text) : Except IoError Int :=
  match behindLastBracket stat with
  | none => .error (.new .invalidData "malformed /proc process stat".toList)
  | some fields =>
    match (splitWhitespace fields)[1]? with
    | none => .error (.new .invalidData "truncated /proc process stat".toList)
    | some field =>
      match parseI32 field with
      | none => .error (.new .invalidData "invalid /proc parent process ID".toList)
      | some parent => .ok parent

/-- The entries of `/proc`, one by one; entries that disappear are passed over. -/
def directChildrenFrom (ownPid : Pid) :
    List (Except IoError Bytes) → Finset Int → Supervising (Except IoError (Finset Int))
  | [], children => pure (.ok children)
  | .error e :: rest, children =>
    if processEntryDisappeared e then directChildrenFrom ownPid rest children else pure (.error e)
  | .ok name :: rest, children =>
    match (fromUtf8 name).bind parseI32 with
    | none => directChildrenFrom ownPid rest children
    | some pid => do
      match ← call (.readStat name) with
      | .error e =>
        if processEntryDisappeared e then directChildrenFrom ownPid rest children
        else pure (.error e)
      | .ok stat =>
        match parentOfStat stat with
        | .error e => pure (.error e)
        | .ok parent =>
          directChildrenFrom ownPid rest
            (if parent = ownPid then insert pid children else children)

def directChildren (ownPid : Pid) : Supervising (Except IoError (Finset Int)) := do
  match ← call .readDir with
  | .error e => pure (.error e)
  | .ok entries => directChildrenFrom ownPid entries ∅

/-- `Pid::from_raw` -/
def pidFromRaw (raw : Int) : Option Pid := if 0 < raw then some raw.toNat else none

structure SubreaperScope where
  baseline : Finset Int
  callerGroup : Pid
  wasEnabled : Bool
deriving DecidableEq

namespace SubreaperScope

/-- The children before the command, and the group of the caller. -/
def measure (ownPid : Pid) (wasEnabled : Bool) : Supervising (Except IoError SubreaperScope) := do
  match ← directChildren ownPid with
  | .error e => pure (.error e)
  | .ok baseline =>
    match ← call .ownGroup with
    | .error e => pure (.error e)
    | .ok callerGroup => pure (.ok ⟨baseline, callerGroup, wasEnabled⟩)

def enter (ownPid : Pid) : Supervising (Except IoError SubreaperScope) := do
  match ← call .childSubreaper with
  | .error e => pure (.error e)
  | .ok true => measure ownPid true
  | .ok false =>
    match ← call (.setChildSubreaper true) with
    | .error e => pure (.error e)
    | .ok () => measure ownPid false

/-- Of the children, in their order, those outside of the caller's group: a process of this
module runs in a group of its own, and the children of concurrent callers do not. -/
def adopted (scope : SubreaperScope) : List Int → Supervising (List Pid)
  | [] => pure []
  | raw :: rest =>
    match pidFromRaw raw with
    | none => adopted scope rest
    | some pid => do
      match ← call (.getpgid pid) with
      | .error _ => adopted scope rest
      | .ok group =>
        let others ← adopted scope rest
        pure (if group ≠ scope.callerGroup then pid :: others else others)

def killAll : List Pid → Supervising Unit
  | [] => pure ()
  | pid :: rest => do
    let _ ← call (.killProcess pid)
    killAll rest

def waitAll : List Pid → Supervising (Except IoError Unit)
  | [] => pure (.ok ())
  | pid :: rest => do
    match ← call (.waitpid pid) with
    | .ok _ => waitAll rest
    | .error e => if e.rawOsError = some .child then waitAll rest else pure (.error e)

def quiescencePass (scope : SubreaperScope) (ownPid : Pid) (deadline : Nat) (_ : Unit) :
    Supervising (Pass Unit (Except IoError Unit)) := do
  match ← directChildren ownPid with
  | .error e => pure (.leave (.error e))
  | .ok children =>
    let adopted ← scope.adopted (children \ scope.baseline).sort
    if adopted = [] then pure (.leave (.ok ()))
    else
      killAll adopted
      match ← waitAll adopted with
      | .error e => pure (.leave (.error e))
      | .ok () =>
        let now : Nat ← call .now
        if deadline ≤ now then
          pure (.leave (.error (.new .timedOut
            "subprocess descendants were not quiescent after direct-child exit".toList)))
        else
          let _ ← call .sleep
          pure (.again ())

/-- Every loop is given `n` passes. -/
def terminateAndReap (scope : SubreaperScope) (n : Nat) (ownPid : Pid) :
    Supervising (Except IoError Unit) := do
  let start : Nat ← call .now
  Looping.loop (scope.quiescencePass ownPid (start + postCancelTimeout)) n ()

/-- `Drop` -/
def drop (scope : SubreaperScope) : Supervising Unit := do
  if scope.wasEnabled then pure ()
  else
    let _ ← call (.setChildSubreaper false)
    pure ()

end SubreaperScope

/-! ## Output streams -/

structure Capture where
  hasReader : Bool
  bytes : Bytes
  limit : Nat
  stream : Stream
deriving Repr, DecidableEq

namespace Capture

def new (stream : Stream) (limit : Nat) : Except IoError Capture :=
  if (checkedAdd limit 1).isNone then .error (.new .invalidInput "invalid output limit".toList)
  else .ok ⟨true, [], limit, stream⟩

def complete (c : Capture) : Bool := !c.hasReader

def exceeded (c : Capture) : Bool := decide (c.limit < c.bytes.length)

/-- One read.  The limit and one more octet are wanted, eight kibibytes at a time. -/
def drainPass (s : Capture × Bool) :
    Supervising (Pass (Capture × Bool) (Except IoError Bool × Capture)) := do
  let c := s.1
  match ← call (.read c.stream (min (c.limit + 1 - c.bytes.length) 8192)) with
  | .ok chunk =>
    if chunk.val = [] then pure (.leave (.ok true, { c with hasReader := false }))
    else
      let c := { c with bytes := c.bytes ++ chunk.val }
      if c.limit + 1 ≤ c.bytes.length then pure (.leave (.ok true, c))
      else pure (.again (c, true))
  | .error e =>
    if e.kind = .wouldBlock then pure (.leave (.ok s.2, c))
    else
      pure (.leave (.error (.new e.kind ("read ".toList ++ c.stream.label ++ ": ".toList ++
        e.message)), c))

/-- Whether there was progress, or the error, and the capture.  A read returns an octet or
is the last one, so that the passes are enough. -/
def drain (c : Capture) : Supervising (Except IoError Bool × Capture) :=
  if c.hasReader = false then pure (.ok false, c)
  else if c.limit + 1 ≤ c.bytes.length then pure (.ok false, c)
  else Looping.loop drainPass (c.limit + 1 - c.bytes.length) (c, false)

end Capture

/-! ## The input -/

structure InputWriter where
  isOpen : Bool
  offset : Nat
deriving Repr, DecidableEq

namespace InputWriter

def writePass (input : Bytes) (s : InputWriter × Bool) :
    Supervising (Pass (InputWriter × Bool) (Except IoError Bool × InputWriter)) := do
  let w := s.1
  if w.offset < input.length then
    match ← call (.write (input.drop w.offset)) with
    | .ok count =>
      if count.val = 0 then
        pure (.leave (.error (.new .writeZero
          "subprocess stdin stopped accepting input".toList), w))
      else pure (.again ({ w with offset := w.offset + count.val }, true))
    | .error e =>
      if e.kind = .wouldBlock then pure (.leave (.ok s.2, w))
      else if e.kind = .brokenPipe then pure (.leave (.ok true, { w with isOpen := false }))
      else
        pure (.leave (.error (.new e.kind ("write subprocess stdin: ".toList ++ e.message)), w))
  else pure (.leave (.ok true, { w with isOpen := false }))

/-- A write takes an octet or is the last one, and the pass behind the last octet closes. -/
def writeInput (w : InputWriter) (input : Bytes) :
    Supervising (Except IoError Bool × InputWriter) :=
  if w.isOpen = false then pure (.ok false, w)
  else Looping.loop (writePass input) (input.length - w.offset + 1) (w, false)

end InputWriter

/-! ## The supervisor -/

def terminateTree (group : Pid) : Supervising Unit := do
  let _ ← call (.killGroup group)
  match ← call .tryWait with
  | .ok (some _) => pure ()
  | _ =>
    let _ ← call .killChild
    pure ()

def reapPass (deadline : Nat) (_ : Unit) :
    Supervising (Pass Unit (Except IoError ExitStatus)) := do
  match ← call .tryWait with
  | .ok (some status) => pure (.leave (.ok status))
  | .error e => pure (.leave (.error e))
  | .ok none =>
    let now : Nat ← call .now
    if deadline ≤ now then
      pure (.leave (.error (.new .timedOut
        "direct child did not exit before the post-cancellation deadline".toList)))
    else
      let _ ← call .sleep
      pure (.again ())

def reapUntil (n deadline : Nat) : Supervising (Except IoError ExitStatus) :=
  Looping.loop (reapPass deadline) n ()

def cleanupError (primary : IoError) : Except IoError ExitStatus → IoError
  | .ok _ => primary
  | .error e => .new .other (primary.message ++ "; cleanup failed: ".toList ++ e.message)

structure Supervision where
  stdout : Capture
  stderr : Capture
  stdin : InputWriter
  status : Option ExitStatus
  directExit : Option Nat
deriving Repr, DecidableEq

namespace Supervision

def exceededError (program : Text) (limits : OutputLimits) (c : Capture) : Option IoError :=
  if c.exceeded then
    some (.new .invalidData (program ++ " ".toList ++ c.stream.label ++ " exceeded its ".toList ++
      digits (c.stream.limit limits) ++ "-byte limit".toList))
  else none

/-- The end of a pass, when it has not left the loop. -/
def rest (s : Supervision) (progressed : Bool) :
    Supervising (Pass Supervision (Supervision × Option IoError)) := do
  if progressed then pure (.again s)
  else
    let _ ← call .sleep
    pure (.again s)

/-- The command has ended and so have both streams, or the streams are held open for too
long, or neither. -/
def judge (program : Text) (s : Supervision) (progressed : Bool) :
    Supervising (Pass Supervision (Supervision × Option IoError)) := do
  if s.status.isSome && s.stdout.complete && s.stderr.complete then pure (.leave (s, none))
  else
    match s.directExit with
    | none => s.rest progressed
    | some started =>
      let now : Nat ← call .now
      if pipeCloseGrace ≤ now - started then
        pure (.leave (s, some (.new .timedOut (program ++
          " descendants retained output pipes after the direct child exited".toList))))
      else s.rest progressed

def pollStatus (program : Text) (s : Supervision) (progressed : Bool) :
    Supervising (Pass Supervision (Supervision × Option IoError)) := do
  match s.status with
  | some _ => s.judge program progressed
  | none =>
    match statusPoll (← call .tryWait) program with
    | .error e => pure (.leave (s, some e))
    | .ok none => s.judge program progressed
    | .ok (some reaped) =>
      let now : Nat ← call .now
      { s with status := some reaped, directExit := some now }.judge program true

/-- One pass: read both streams, write, look at the limits, and ask for the status.  The
first failure leaves the loop. -/
def pass (program : Text) (limits : OutputLimits) (input : Bytes) (s : Supervision) :
    Supervising (Pass Supervision (Supervision × Option IoError)) := do
  let (drained, stdout) ← s.stdout.drain
  let s := { s with stdout := stdout }
  match drained with
  | .error e => pure (.leave (s, some e))
  | .ok first =>
    let (drained, stderr) ← s.stderr.drain
    let s := { s with stderr := stderr }
    match drained with
    | .error e => pure (.leave (s, some e))
    | .ok second =>
      let (written, stdin) ← s.stdin.writeInput input
      let s := { s with stdin := stdin }
      match written with
      | .error e => pure (.leave (s, some e))
      | .ok third =>
        match (exceededError program limits s.stdout).or
            (exceededError program limits s.stderr) with
        | some e => pure (.leave (s, some e))
        | none => s.pollStatus program (first || second || third)

end Supervision

/-- Signal the group of the command, and wait for the command if it was not waited for. -/
def cancel (n : Nat) (group : Pid) (status : Option ExitStatus) (error : IoError) :
    Supervising (Except IoError Output) := do
  terminateTree group
  match status with
  | some reaped => pure (.error (cleanupError error (.ok reaped)))
  | none =>
    let start : Nat ← call .now
    let cleanup ← reapUntil n (start + postCancelTimeout)
    pure (.error (cleanupError error cleanup))

def setNonblockingAll : List Handle → Supervising (Except IoError Unit)
  | [] => pure (.ok ())
  | handle :: rest => do
    match ← call (.setNonblocking handle) with
    | .error e => pure (.error e)
    | .ok () => setNonblockingAll rest

/-- What is left of `output_inner` when the loop is left. -/
def conclude (n : Nat) (group : Pid) (s : Supervision) :
    Option IoError → Supervising (Except IoError Output)
  | some error => cancel n group s.status error
  | none => do
    let _ ← call (.killGroup group)
    match s.status with
    | none => pure (.error (.new .other "direct child was not reaped".toList))
    | some status => pure (.ok ⟨status, s.stdout.bytes, s.stderr.bytes⟩)

def captures (limits : OutputLimits) : Except IoError (Capture × Capture) := do
  let stdout ← Capture.new .stdout limits.stdout
  let stderr ← Capture.new .stderr limits.stderr
  pure (stdout, stderr)

/-- The command has been spawned. -/
def supervise (n : Nat) (program : Text) (limits : OutputLimits) (input : Option Bytes)
    (group : Pid) : Supervising (Except IoError Output) := do
  let handles := [.output .stdout, .output .stderr] ++ (if input.isSome then [.stdin] else [])
  match ← setNonblockingAll handles with
  | .error e => cancel n group none e
  | .ok () =>
    match captures limits with
    | .error e => pure (.error e)
    | .ok (stdout, stderr) =>
      let bytes := input.getD []
      let (s, failure) ← Looping.loop (Supervision.pass program limits bytes) n
        ⟨stdout, stderr, ⟨!bytes.isEmpty, 0⟩, none, none⟩
      conclude n group s failure

def outputInner (n : Nat) (program : Text) (limits : OutputLimits) (input : Option Bytes) :
    Supervising (Except IoError Output) := do
  match ← call .spawn with
  | .error e => pure (.error e)
  | .ok group => supervise n program limits input group

def withCleanup (result : Except IoError Output) (cleanup : Except IoError Unit) :
    Except IoError Output :=
  match result, cleanup with
  | .ok output, .ok () => .ok output
  | .error e, .ok () => .error e
  | .ok _, .error e => .error e
  | .error e, .error cleanup =>
    .error (.new .other (e.message ++ "; descendant cleanup failed: ".toList ++ cleanup.message))

def outputWithStatusPoll (n : Nat) (ownPid : Pid) (program : Text) (limits : OutputLimits)
    (input : Option Bytes) : Supervising (Except IoError Output) := do
  match ← SubreaperScope.enter ownPid with
  | .error e => pure (.error e)
  | .ok scope =>
    let result ← outputInner n program limits input
    let cleanup ← scope.terminateAndReap n ownPid
    scope.drop
    pure (withCleanup result cleanup)

/-- `output` and `output_with_input`, without the directories of a protected Cargo state. -/
def output (n : Nat) (ownPid : Pid) (program : Text) (limits : OutputLimits)
    (input : Option Bytes) : Supervising (Except IoError Output) :=
  match validateLimits limits input with
  | .error e => pure (.error e)
  | .ok () => outputWithStatusPoll n ownPid program limits input

end Tooling
end YamlSigil
