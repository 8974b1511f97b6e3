import Telecontrol.Server.Worker

/-! # Runs of a server

A **run** is a sequence of inputs to a server: calls from outside, tasks of the worker and moves of
the clock, in any order. Since the worker's tasks are inputs of their own, a run may let deferred
work wait for as long as it likes.

Main statements: `Server.run_append` and `Server.run_nil`; every property of runs is an induction
over `Server.step`. -/

namespace Telecontrol

/-- What a caller writes to a point. -/
inductive PointWrite where
  | value (value : Value)
  | quality (quality : Quality)
  | reportInterval (ms : UInt64)
  | reported (time : UInt64)
  | timer (time : UInt64)
  | callback (kind : PointCallback) (callback : Callback)

/-- One thing that happens to a server. -/
inductive Input where
  /-- The worker does one task, if one is ready. -/
  | work
  /-- Time passes. -/
  | pass (ms : Nat)
  | start
  | stop
  | shutDown
  | request (peer : String)
  | connection (connection : ConnectionId) (event : ConnectionEvent)
  | frame (connection : ConnectionId) (frame : WireFrame)
  | octets (connection : ConnectionId) (data : List UInt8) (sent : Bool)
  | addStation (station : CommonAddress)
  | removeStation (station : CommonAddress)
  | keepStation (id : StationId)
  | releaseStation (id : StationId)
  | addPoint (id : StationId) (spec : PointSpec)
  | removePoint (id : StationId) (address : ObjectAddress)
  /-- A point is given up behind its station's back. -/
  | vacate (handle : Handle)
  | write (id : PointId) (write : PointWrite)
  | setCallbacks (callbacks : ServerCallbacks)
  | send (frame : Frame) (receiver : Option ConnectionId)
  | sendBatch (batch : Batch) (receiver : Option ConnectionId)
  | transmit (id : PointId) (cause : Cause)
  | interrogate (cause : Cause) (station : CommonAddress) (receiver : Option ConnectionId)

/-- Write to a point. -/
def Point.write (p : Point) (now : Int) : PointWrite → Point
  | .value value => p.setValue now value
  | .quality quality => p.setQuality quality
  | .reportInterval ms => p.setReportInterval ms
  | .reported time => p.markReported time
  | .timer time => p.markTimer time
  | .callback kind callback => p.setCallback kind callback

namespace Server

/-- Write to a point. -/
def writePoint (s : Server) (id : PointId) (w : PointWrite) : Server :=
  s.modifyPoint id (·.write s.now w)

/-- Keep the old state when an operation fails. -/
def orSame (s : Server) : Except ServerError Server → Server
  | .ok s => s
  | .error _ => s

/-- Keep a station. -/
def keepStation (s : Server) (id : StationId) : Server := { s with plant := s.plant.keep id }

/-- Stop keeping a station. -/
def releaseStation (s : Server) (id : StationId) : Server := { s with plant := s.plant.release id }

/-- Give up a point behind its station's back. -/
def vacate (s : Server) (h : Handle) : Server :=
  { s with plant := { s.plant with points := s.plant.points.remove h } }

/-- The state after an input. -/
def step (s : Server) : Input → Server
  | .work => s.work?.getD s
  | .pass ms => s.pass ms
  | .start => s.orSame s.start
  | .stop => s.stop
  | .shutDown => s.shutDown
  | .request peer => (s.onRequest peer).1
  | .connection c e => s.onConnectionEvent c e
  | .frame c f => s.outside (onFrame c f)
  | .octets c data sent => s.onOctets c data sent
  | .addStation station => s.orSame ((s.addStation station).map (·.1))
  | .removeStation station => (s.removeStation station).1
  | .keepStation id => s.keepStation id
  | .releaseStation id => s.releaseStation id
  | .addPoint id spec => s.orSame (s.addPoint id spec)
  | .removePoint id address => (s.removePoint id address).1
  | .vacate h => s.vacate h
  | .write id w => s.writePoint id w
  | .setCallbacks callbacks => { s with callbacks }
  | .send f receiver => (s.send f receiver).1
  | .sendBatch b receiver => (s.sendBatch b receiver).1
  | .transmit id cause => (s.transmitPoint id cause none).1
  | .interrogate cause station receiver =>
    s.outside (discard <| interrogate onFrame cause station receiver)

/-- The state after a run. -/
def run (s : Server) (inputs : List Input) : Server := inputs.foldl step s

/-- Without inputs a server stays as it is. -/
@[simp] theorem run_nil (s : Server) : s.run [] = s := rfl

/-- The first input is taken, and then the others. -/
@[simp] theorem run_cons (s : Server) (i : Input) (is : List Input) :
    s.run (i :: is) = (s.step i).run is := rfl

/-- Inputs one after the other are taken as one sequence. -/
theorem run_append (s : Server) (is js : List Input) : s.run (is ++ js) = (s.run is).run js :=
  List.foldl_append ..

end Server

end Telecontrol
