import Telecontrol.Server.Inbound

/-! # Deferred work

The **worker** of a server takes one task at a time from the executor and does its job.
`Server.work?` is one task. A callback that panics ends its task and is reported; what was done
before stays.

`settle` and `advance` let the worker keep up with the clock; a worker that does not keep up starts
its tasks late. -/

namespace Telecontrol

namespace Server

/-! ## The jobs -/

/-- The inventory duty: the cyclic reports of every station, while somebody receives. -/
def inventory (inlet : Inlet) : Act Unit := do
  let s ← get
  if 0 < s.connections.activeCount then
    discard <| interrogate inlet .periodic globalAddress none

/-- Drop the expired selections; their holders are told, in the order of their connections. -/
def dropExpired (s : Server) : Server :=
  let expired := Selection.byConnection (s.selections.expired s.now)
  -- the selections are gone before their holders are told
  let s := { s with selections := s.selections.sweep s.now }
  expired.foldl (fun s held => (s.note (.ended held .expired)).defer (-1) (.unselect held)) s

/-- Schedule the timer callback of a point whose timer has run out. -/
def serveTimer (s : Server) (h : Handle) : Server :=
  match s.plant.points.resolve? h with
  | none => s
  | some id =>
    if (s.point? id).any fun p => Point.isDue p.nextTimer? s.now then
      -- the next interval begins now, not when the callback runs
      (s.modifyPoint id (·.markTimer (clockCount s.now))).defer (-1) (.pointTimer h)
    else s

/-- Serve the timers of every point, station by station. -/
def serveTimers (s : Server) : Server :=
  let stations := s.plant.roster.values
  stations.foldl (fun s id => (s.plant.station id).points.values.foldl serveTimer s) s

/-- The sweep duty: expired selections, then timers. -/
def sweep (s : Server) : Server := s.dropExpired.serveTimers

/-- Release the selection of an executed command, unless it was renewed since. -/
def releaseExecuted (s : Server) (station : CommonAddress) (address : ObjectAddress)
    (created : Int) : Server :=
  let s := (s.selections.createdAt? station address created).elim s
    fun held => s.note (.ended held .executed)
  { s with selections := s.selections.removeIf station address created }

/-- Send the point that shows the effect of a command, if it is still there. -/
def returnPoint (s : Server) (h : Handle) : Server :=
  match s.plant.points.get? h with
  | none => s
  | some p =>
    match s.transmit p .returnInfoRemote none with
    | (s, .ok _) => s
    | (s, .error e) => s.report (.returnFailed p.address e)

/-- Call the timer callback of a point, if it is still there. -/
def fireTimer (inlet : Inlet) (h : Handle) : Act Unit := do
  match (← get).plant.points.resolve? h with
  | none => return
  | some id => call inlet .timer id

/-- Show observed octets to whoever wants to see them. -/
def showOctets (inlet : Inlet) (sent : Bool) (c : ConnectionId) (data : List UInt8) : Act Unit := do
  let s ← get
  match s.callbacks.octets sent with
  | none => return
  | some actions =>
    set (s.note (.octets sent c data))
    performAll inlet none actions

/-- Do a job. -/
def doJob (inlet : Inlet) : Job → Act Unit
  | .duty .inventory => inventory inlet
  | .duty .sweep => modify sweep
  | .release station address created => modify (·.releaseExecuted station address created)
  | .autoReturn h => modify (·.returnPoint h)
  | .unselect held => modify (·.sendUnselect held)
  | .pointTimer h => fireTimer inlet h
  | .octets sent c data => showOctets inlet sent c data

/-! ## The worker -/

/-- Do something from the worker: a panic is reported and nothing else. -/
def guard (s : Server) (act : Act Unit) : Server :=
  match act s with
  | .ok _ s => s
  | .error panic s => s.report (.task (.panicked panic.message))

/-- Do something from outside: a panic is the caller's. -/
def outside (s : Server) (act : Act Unit) : Server :=
  match act s with
  | .ok _ s => s
  | .error _ s => s

/-- Report a task that starts late. -/
def noteLateness (s : Server) (t : Task Job) : Server :=
  let lateness := t.due.lateness s.now
  if TaskNotice.latenessThreshold < lateness then s.report (.task (.late lateness t.seq)) else s

/-- The worker takes the next task and does its job, if a task is ready. -/
def work? (s : Server) : Option Server :=
  match s.executor.next? s.now with
  | none => none
  | some (task, executor) =>
    let s := { s with executor }.noteLateness task
    let (executor, job) := s.executor.launch s.now task
    let s := { s with executor }
    some (job.elim s fun job => s.guard (doJob onFrame job))

/-- Let the worker run until nothing is ready, at most `limit` tasks. -/
def settleWithin (s : Server) : Nat → Server
  | 0 => s
  | limit + 1 =>
    match s.work? with
    | none => s
    | some s => s.settleWithin limit

/-- More tasks than are ever ready at once. -/
def patience : Nat := 1000000000

/-- Let the worker run until nothing is ready. -/
def settle (s : Server) : Server := s.settleWithin patience

/-! ## The clock -/

/-- Let time pass without doing anything. -/
def pass (s : Server) (ms : Nat) : Server := { s with now := s.now + ms }

/-- Move the clock forward, never backward. -/
def moveTo (s : Server) (time : Int) : Server := { s with now := max s.now time }

/-- Wait for a target, stopping at each deadline on the way; at most `limit` stops. -/
def waitWithin (s : Server) (target : Int) : Nat → Server
  | 0 => s
  | limit + 1 =>
    match s.executor.nextDeadline? with
    | none => s
    | some time =>
      if time ≤ target then ((s.moveTo time).settle).waitWithin target limit else s

/-- Let time pass while the worker works. -/
def advance (s : Server) (ms : Nat) : Server :=
  let target := s.now + ms
  ((s.settle.waitWithin target (ms + 1)).moveTo target).settle

end Server

end Telecontrol
