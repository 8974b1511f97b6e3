import Telecontrol.Server.Callbacks

/-! # Interrogation

An **interrogation** sends the monitoring points of a station, or of all stations. Which points it
sends depends on its cause: those whose cyclic report is due, the integrated totals, or everything a
client may read. The points of each station are grouped by type into batches; the batches of a
station are sent before the next station is looked at.

Before a point is sent its callback may bring its value up to date, or do anything else: a point
that is gone by the time its batch is built is left out. -/

namespace Telecontrol

/-- Whether an interrogation with a cause asks for a point. -/
def Point.isAskedFor (p : Point) (cause : Cause) (now : Int) : Bool :=
  match cause with
  | .periodic => p.type.isMonitoring && Point.isDue p.nextReport? now
  | .requestedByGeneralCounter => p.type.isCounter
  | _ => p.type.isReadable

namespace Server

/-- Call the callback of a point that an interrogation asks for; a cyclic report is noted. -/
def prepare (inlet : Inlet) (cause : Cause) (id : PointId) : Act Unit :=
  if cause = .periodic then do
    call inlet .beforeReport id
    -- the report is noted even if the callback has removed the point
    modify fun s => s.modifyPoint id (·.markReported (clockCount s.now))
  else call inlet .beforeRead id

/-- Put a point into the batch of its type. -/
def collect (s : Server) (cause : Cause) (groups : Table TypeId Batch) (p : Point) (h : Handle) :
    Server × Table TypeId Batch :=
  let batch := (groups.find? p.type).getD { cause }
  -- the batch is kept either way; one without points sends nothing
  match batch.add s.plant.points h with
  | .ok batch => (s, groups.insert p.type batch)
  | .error e => (s.report (.skipped p.address e), groups.insert p.type batch)

/-- Look at the points of a station in turn and collect those that are asked for. -/
def scan (inlet : Inlet) (cause : Cause) :
    List Handle → Table TypeId Batch → Act (Table TypeId Batch)
  | [], groups => return groups
  | h :: rest, groups => do
    let s ← get
    -- callbacks may have removed the point since the station was asked for its handles
    let found := do
      let id ← s.plant.points.resolve? h
      let p ← s.point? id
      if p.isAskedFor cause s.now then some (id, p) else none
    match found with
    | none => scan inlet cause rest groups
    | some (id, p) =>
      prepare inlet cause id
      let (s, groups) := (← get).collect cause groups p h
      set s
      scan inlet cause rest groups

/-- Send batches one after the other; the answer is the number of frames. -/
def sendBatches (s : Server) (receiver : Option ConnectionId) : List Batch → Server × Nat
  | [] => (s, 0)
  | b :: rest =>
    let (s, n) := s.sendBatch b receiver
    let (s, m) := s.sendBatches receiver rest
    (s, n + m)

/-- Send what an interrogation asks one station for. -/
def interrogateStation (inlet : Inlet) (cause : Cause) (receiver : Option ConnectionId)
    (id : StationId) : Act Nat := do
  let groups ← scan inlet cause ((← get).plant.station id).points.values .empty
  let (s, n) := (← get).sendBatches receiver groups.values
  set s
  return n

/-- Send what an interrogation asks stations for, one after the other. -/
def interrogateStations (inlet : Inlet) (cause : Cause) (receiver : Option ConnectionId) :
    List StationId → Act Nat
  | [] => return 0
  | id :: rest => do
    let n ← interrogateStation inlet cause receiver id
    let m ← interrogateStations inlet cause receiver rest
    return n + m

/-- Answer an interrogation of the station at an address. The answer is the number of frames; a
server that cannot send does not look at any point. -/
def interrogate (inlet : Inlet) (cause : Cause) (station : CommonAddress)
    (receiver : Option ConnectionId) : Act Nat := do
  let s ← get
  if s.canSend then interrogateStations inlet cause receiver (s.plant.addressed station)
  else return 0

end Server

end Telecontrol
