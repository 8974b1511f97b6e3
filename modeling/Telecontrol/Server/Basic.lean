import Telecontrol.Server.Event
import Telecontrol.Station.Plant
import Telecontrol.Task.Executor

/-! # The server

A **server** is a controlled station's side of the protocol: the plant, the connections and
selections of its clients, an executor for deferred work, and a clock that the environment moves.

This module holds the state and the operations that every other one is built from: writing the
journal, deferring work, and the functions on the state that may be abandoned by a panicking
callback, `Act`. -/

namespace Telecontrol

/-- The parameters of a server. -/
structure Options where
  /-- The interval of the periodic duties, in milliseconds. -/
  tickRate : Nat := 100
  /-- How long a selection lives, in milliseconds. -/
  selectTimeout : Nat := 10000
  /-- How many connections may be open; zero means any number. -/
  maxOpen : Nat := 0
  deriving DecidableEq, Repr

/-- A periodic **duty** of a running server. -/
inductive Duty where
  /-- Send the cyclic reports that are due. -/
  | inventory
  /-- Drop expired selections and serve the timers of points. -/
  | sweep
  deriving DecidableEq, Repr

/-- Work that a server defers. -/
inductive Job where
  | duty (duty : Duty)
  /-- Release the selection of an executed command, unless it was renewed since. -/
  | release (station : CommonAddress) (address : ObjectAddress) (created : Int)
  /-- Send the point that shows the effect of a command. -/
  | autoReturn (handle : Handle)
  /-- Tell a client that its selection has expired. -/
  | unselect (selection : Selection)
  /-- Call the timer callback of a point. -/
  | pointTimer (handle : Handle)
  /-- Call the callback for observed octets. -/
  | octets (sent : Bool) (connection : ConnectionId) (data : List UInt8)
  deriving DecidableEq, Repr

/-- A **server**. -/
structure Server where
  options : Options
  /-- The clock, in milliseconds since the epoch. -/
  now : Int
  /-- Whether frames are handled and duties done. -/
  running : Bool
  executor : Executor Job
  /-- The chains of the duties. -/
  duties : List ChainId
  plant : Plant
  selections : SelectionTable
  connections : Connections
  callbacks : ServerCallbacks
  transport : Transport
  /-- What has happened, the latest first. -/
  journal : List Entry

/-- The message with which a callback gave up. -/
structure Panic where
  message : String
  deriving DecidableEq, Repr

/-- Something a server does that a panicking callback may cut short. What was done before the panic
stays done. -/
abbrev Act := EStateM Panic Server

namespace Server

/-- Write an event into the journal. -/
def note (s : Server) (e : Event) : Server := { s with journal := ⟨s.now, e⟩ :: s.journal }

/-- Report something. -/
def report (s : Server) (n : Notice) : Server := s.note (.notice n)

/-- The journal so far, the earliest entry first, and the server with an empty journal. -/
def takeJournal (s : Server) : Server × List Entry := ({ s with journal := [] }, s.journal.reverse)

/-- Hand work to the executor; a negative delay means at once. -/
def defer (s : Server) (delay : Int) (job : Job) : Server :=
  let (executor, taken) := s.executor.add s.now delay job
  if taken then { s with executor } else s.report (.task .rejected)

/-- Write to a point. -/
def modifyPoint (s : Server) (id : PointId) (f : Point → Point) : Server :=
  { s with plant := s.plant.modifyPoint id f }

/-- Attach a callback to a point. -/
def setCallback (s : Server) (id : PointId) (kind : PointCallback) (callback : Callback) : Server :=
  s.modifyPoint id (·.setCallback kind callback)

/-- A point by its number. -/
def point? (s : Server) (id : PointId) : Option Point := s.plant.points.point? id

/-- The originator that holds a live selection of a point. -/
def holder? (s : Server) (station : CommonAddress) (address : ObjectAddress) : Option Originator :=
  s.selections.holder? s.now station address

/-- Add a station. -/
def addStation (s : Server) (address : CommonAddress) :
    Except ServerError (Server × StationId) := do
  let (plant, id) ← s.plant.addStation address
  return ({ s with plant }.report (.stationAdded address), id)

/-- Remove a station with its points. The answer is false when there is none. -/
def removeStation (s : Server) (address : CommonAddress) : Server × Bool :=
  match s.plant.removeStation address with
  | none => (s, false)
  | some plant => ({ s with plant }.report (.stationRemoved address), true)

/-- Add a point to a station. -/
def addPoint (s : Server) (id : StationId) (spec : PointSpec) : Except ServerError Server := do
  let (plant, _) ← s.plant.addPoint id s.now spec
  return { s with plant }

/-- Remove a point of a station. -/
def removePoint (s : Server) (id : StationId) (address : ObjectAddress) : Server × Bool :=
  let (plant, removed) := s.plant.removePoint id address
  ({ s with plant }, removed)

end Server

end Telecontrol
