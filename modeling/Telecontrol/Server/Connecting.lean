import Telecontrol.Server.Sending

/-! # Connections of a server

How peers come and go, and how a server is started and stopped. Starting begins the duties; stopping
ends them, closes every connection and drops every selection, and the server can be started again.

Main statements: `Server.start_of_running` and `Server.stop_of_not_running` (both do nothing twice).
-/

namespace Telecontrol

namespace Server

/-- A server without stations that was never started. -/
def init (options : Options) (transport : Transport) (now : Int) : Server where
  options
  now
  running := false
  executor := .start
  duties := []
  plant := .empty
  selections := .new options.selectTimeout
  connections := .none
  callbacks := {}
  transport
  journal := []

/-- A new server, if its parameters are possible. -/
def new (options : Options) (transport : Transport) (now : Int) : Except ServerError Server :=
  if options.tickRate < minInterval then
    .error (.outOfRange (.tickRate options.tickRate minInterval))
  else if options.selectTimeout = 0 then .error (.invalidArgument .selectTimeoutZero)
  else .ok ((init options transport now).report (.task .started))

/-- Begin a duty. -/
def beginDuty (s : Server) (duty : Duty) : Except TaskError Server := do
  let (executor, chain) ← s.executor.addPeriodic s.now s.options.tickRate (.duty duty)
  return { s with executor, duties := s.duties ++ [chain] }

/-- Handle frames from now on and begin the duties. A server that runs is left alone. -/
def start (s : Server) : Except ServerError Server :=
  if s.running then .ok s
  else
    match { s with running := true }.beginDuty .inventory >>= (·.beginDuty .sweep) with
    | .error e => .error (.task e)
    | .ok s => .ok (s.report (.started s.options.tickRate))

/-- Close a connection at the transport. -/
def close (s : Server) (c : ConnectionId) : Server :=
  { s with transport := s.transport.close c }.note (.closed c)

/-- Note the end of selections. -/
def noteEnds (s : Server) (ended : List Selection) (why : SelectionEnd) : Server :=
  ended.foldl (fun s held => s.note (.ended held why)) s

/-- End the duties, close every connection and drop every selection. A stopped server is left
alone. -/
def stop (s : Server) : Server :=
  if s.running then
    let s := { s with
      running := false
      executor := s.duties.foldl Executor.cancel s.executor
      duties := [] }
    -- the connections are forgotten before the first one is closed
    let (connections, forgotten) := s.connections.clear
    let s := forgotten.foldl close { s with connections }
    let s := s.noteEnds s.selections.entries.values .stopped
    { s with selections := s.selections.clear }.report .stopped
  else s

/-- Stop the executor for good. -/
def stopExecutor (s : Server) : Server :=
  if s.executor.running then
    { s with executor := s.executor.stop }.report (.task .stopped)
  else s

/-- Give the server up: it stops for good, and the stations nobody keeps give up their points. -/
def shutDown (s : Server) : Server :=
  let s := s.stop.stopExecutor
  { s with plant := s.plant.dissolve }

/-- Decide whether a peer may connect. -/
def onRequest (s : Server) (peer : String) : Server × Bool :=
  if 0 < s.options.maxOpen && s.options.maxOpen ≤ s.connections.openCount then
    (s.report (.peerRefused peer s.options.maxOpen), false)
  else
    match s.callbacks.admission with
    | none => (s, true)
    | some admission => (s.note (.requested peer), admission.admits peer)

/-- Drop the selections that were held through a connection. -/
def dropSelections (s : Server) (c : ConnectionId) : Server :=
  let s := s.noteEnds (s.selections.heldThrough c) .closed
  { s with selections := s.selections.removeConnection c }

/-- Record an event of a connection. A connection that closes loses its selections. -/
def onConnectionEvent (s : Server) (c : ConnectionId) (e : ConnectionEvent) : Server :=
  let s := { s with connections := s.connections.onEvent c e }
  -- the table is written first, so the connection is gone when its selections go
  let s := if e = .closed then s.dropSelections c else s
  s.report (.connection c e s.connections.activeCount)

/-- Octets were observed on a connection; if somebody wants to see them, they are shown later. -/
def onOctets (s : Server) (c : ConnectionId) (data : List UInt8) (sent : Bool) : Server :=
  if (s.callbacks.octets sent).isSome then s.defer (-1) (.octets sent c data) else s

/-! ## Starting and stopping twice -/

/-- A running server is started already. -/
@[simp] theorem start_of_running {s : Server} (h : s.running = true) : s.start = .ok s := by
  simp [start, h]

/-- A server that does not run is stopped already. -/
@[simp] theorem stop_of_not_running {s : Server} (h : s.running = false) : s.stop = s := by
  simp [stop, h]

end Server

end Telecontrol
