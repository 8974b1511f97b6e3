import Telecontrol.Task.Executor
import Telecontrol.Task.Notice

/-! # Sessions with an executor

In a **session** a client gives commands to an executor and keeps the handles of its chains under
names. The bodies of its tasks are lists of the same commands, so tasks may add tasks, cancel chains
and stop the executor that runs them. The session has a clock of its own, which moves when the
client waits and when a body takes time.

`Session.step?` is one task of the worker; `settle`, `advance` and `jump` are how a client waits. -/

namespace Telecontrol

/-- A **command** to an executor, or something a body does on its own account. -/
inductive Command where
  /-- Add a task. -/
  | add (label : String) (delay : Int) (body : List Command)
  /-- Begin a chain and keep its handle under the label. -/
  | periodic (label : String) (interval : Nat) (body : List Command)
  /-- End the chain of a kept handle. -/
  | cancel (label : String)
  /-- Whether the chain of a kept handle was cancelled. -/
  | isCancelled (label : String)
  /-- Drop a kept handle; the chain goes on. -/
  | dropHandle (label : String)
  /-- Stop the executor. -/
  | stop
  /-- Whether the executor runs. -/
  | isRunning
  /-- The number of tasks that wait. -/
  | pending
  /-- The executor in words. -/
  | describe
  /-- Give up the body with a message. -/
  | panic (message : String)
  /-- Take time. -/
  | spend (ms : Nat)

/-- What a command answers. -/
inductive Reply where
  | nothing
  | done
  | flag (b : Bool)
  | number (n : Nat)
  | text (s : String)
  | failed (error : TaskError)
  deriving DecidableEq, Repr

/-- A **body**: the commands of a task, under the label of the task. -/
structure Body where
  label : String
  commands : List Command

/-- What happens in a session. -/
inductive SessionEvent where
  /-- The body of a task begins. -/
  | began (label : String)
  /-- A command of a body was carried out; `label` is the label of its task. -/
  | did (label : String) (command : Command) (reply : Reply)
  /-- The executor reports something. -/
  | notice (notice : TaskNotice)

/-- A **session**: an executor, a clock, the handles kept, and what has happened. -/
structure Session where
  executor : Executor Body
  now : Int
  handles : List (String × ChainId)
  /-- What has happened and when, the latest first. -/
  journal : List (Int × SessionEvent)

namespace Session

/-- Write into the journal. -/
def note (s : Session) (e : SessionEvent) : Session := { s with journal := (s.now, e) :: s.journal }

/-- A new session. -/
def start (now : Int) : Session :=
  note ⟨.start, now, [], []⟩ (.notice .started)

/-- The handle kept under a name. -/
def handle? (s : Session) (label : String) : Option ChainId := s.handles.lookup label

/-- Forget the handle kept under a name. -/
def dropHandle (s : Session) (label : String) : Session :=
  { s with handles := s.handles.filter fun h => h.1 != label }

/-- Keep a handle, in exchange for an earlier one of the same name. -/
def keepHandle (s : Session) (label : String) (chain : ChainId) : Session :=
  { s.dropHandle label with handles := (label, chain) :: (s.dropHandle label).handles }

/-- Stop the executor. -/
def stop (s : Session) : Session :=
  if s.executor.running then
    { s with executor := s.executor.stop }.note (.notice .stopped)
  else s

/-- Let time pass without running anything. -/
def spend (s : Session) (ms : Nat) : Session := { s with now := s.now + ms }

/-- Carry out a command. -/
def perform (s : Session) : Command → Session × Reply
  | .add label delay commands =>
    let (executor, taken) := s.executor.add s.now delay ⟨label, commands⟩
    let s := { s with executor }
    (if taken then s else s.note (.notice .rejected), .flag taken)
  | .periodic label interval commands =>
    match s.executor.addPeriodic s.now interval ⟨label, commands⟩ with
    | .error e => (s, .failed e)
    | .ok (executor, chain) => ({ s with executor }.keepHandle label chain, .done)
  | .cancel label =>
    match s.handle? label with
    | none => (s, .nothing)
    | some chain => ({ s with executor := s.executor.cancel chain }, .done)
  | .isCancelled label =>
    (s, (s.handle? label).elim .nothing fun chain => .flag (s.executor.isCancelled chain))
  | .dropHandle label => (s.dropHandle label, .flag (s.handle? label).isSome)
  | .stop => (s.stop, .nothing)
  | .isRunning => (s, .flag s.executor.running)
  | .pending => (s, .number s.executor.pending)
  | .describe => (s, .text s.executor.describe)
  | .spend ms => (s.spend ms, .nothing)
  | .panic _ => (s, .nothing)

/-- Carry out the commands of a body. A panic abandons the rest. -/
def run (s : Session) (label : String) : List Command → Session
  | [] => s
  | .panic message :: _ => s.note (.notice (.panicked message))
  | .spend ms :: rest => (s.spend ms).run label rest
  | c :: rest =>
    let (s, reply) := s.perform c
    (s.note (.did label c reply)).run label rest

/-- Run the body of a task. -/
def runBody (s : Session) (b : Body) : Session := (s.note (.began b.label)).run b.label b.commands

/-- The worker takes the next task and runs it, if one is ready. -/
def step? (s : Session) : Option Session :=
  match s.executor.next? s.now with
  | none => none
  | some (task, executor) =>
    let lateness := task.due.lateness s.now
    let s := { s with executor }
    -- lateness is noted before the body begins
    let s := if TaskNotice.latenessThreshold < lateness then
      s.note (.notice (.late lateness task.seq)) else s
    let (executor, body) := s.executor.launch s.now task
    let s := { s with executor }
    some (body.elim s s.runBody)

/-- Let the worker run until nothing is ready, at most `limit` tasks. -/
def settleWithin (s : Session) : Nat → Session
  | 0 => s
  | limit + 1 =>
    match s.step? with
    | none => s
    | some s => s.settleWithin limit

/-- More tasks than the worker runs without the client's doing. -/
def patience : Nat := 1000000000

/-- Let the worker run until nothing is ready. -/
def settle (s : Session) : Session := s.settleWithin patience

/-- Move the clock forward, never backward. -/
def moveTo (s : Session) (time : Int) : Session := { s with now := max s.now time }

/-- Wait for a target, stopping at each deadline on the way; at most `limit` stops. -/
def waitWithin (s : Session) (target : Int) : Nat → Session
  | 0 => s
  | limit + 1 =>
    match s.executor.nextDeadline? with
    | none => s
    | some time =>
      if time ≤ target then ((s.moveTo time).settle).waitWithin target limit else s

/-- Let time pass while the worker works. -/
def advance (s : Session) (ms : Nat) : Session :=
  let target := s.now + ms
  ((s.settle.waitWithin target (ms + 1)).moveTo target).settle

/-- Let time pass at once; what was due meanwhile runs late. -/
def jump (s : Session) (ms : Nat) : Session := (s.spend ms).settle

end Session

end Telecontrol
