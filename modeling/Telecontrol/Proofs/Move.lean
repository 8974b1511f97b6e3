import Mathlib.Data.Set.Insert
import Mathlib.Logic.Relation
import Telecontrol.Proofs.Command

/-! # The moves of a server

A **move** is the smallest thing that a server does: it hands over one frame, defers one job, grants
one selection, takes one task from its queue. Between two moves a callback may run, and a callback
runs by moves itself. Each move is labelled by the **deed** it is done for, so that a set of deeds
says what a part of a run may do.

The states that a run leads to between its inputs are **reachable**; those that it also passes
through while callbacks run are **visited**.

Main statements: `Moves.induction` (what every move keeps is kept by several of them) and
`Visited.moves`. -/

namespace Telecontrol

/-! ## Kinds of events, jobs and writes -/

/-- Reports that say nothing about selections. -/
def Notice.isPlain : Notice → Bool
  | .stopped | .connection _ .closed _ | .selectRejected .. => false
  | _ => true

/-- Events that say nothing about selections and commands, frames apart. -/
def Event.isPlain : Event → Bool
  | .granted _ | .ended .. | .applied .. | .sent _ => false
  | .notice n => n.isPlain
  | _ => true

/-- The address of the command whose execution a frame ends: only the termination of a command ends
one. -/
def Sent.concluded? : Sent → Option (CommonAddress × ObjectAddress)
  | .returned _ f =>
    match Message.ofFrame f with
    | .error _ => none
    | .ok m =>
      if m.type.isCommand && m.cause == .activationTermination then some (m.station, m.address)
      else none
  | _ => none

/-- Jobs that are deferred by something else than a selection. -/
def Job.isPlain : Job → Bool
  | .autoReturn _ | .pointTimer _ | .octets .. => true
  | _ => false

/-- Two states of one point: what was fixed when the point was made is the same. -/
structure Point.SameAs (p q : Point) : Prop where
  station : q.station = p.station
  address : q.address = p.address
  type : q.type = p.type
  mode : q.mode = p.mode
  related : q.related = p.related
  autoReturn : q.autoReturn = p.autoReturn

/-- One change of the plant. -/
inductive Plant.Change (now : Int) : Plant → Plant → Prop where
  | addStation {p q : Plant} {address : CommonAddress} {id : StationId}
      (h : p.addStation address = .ok (q, id)) : Change now p q
  | removeStation {p q : Plant} {address : CommonAddress}
      (h : p.removeStation address = some q) : Change now p q
  | keep (p : Plant) (id : StationId) : Change now p (p.keep id)
  | release (p : Plant) (id : StationId) : Change now p (p.release id)
  | addPoint {p q : Plant} {id : StationId} {spec : PointSpec} {handle : Handle}
      (h : p.addPoint id now spec = .ok (q, handle)) : Change now p q
  | removePoint (p : Plant) (id : StationId) (address : ObjectAddress) :
      Change now p (p.removePoint id address).1
  | vacate (p : Plant) (handle : Handle) :
      Change now p { p with points := p.points.remove handle }
  | dissolve (p : Plant) : Change now p p.dissolve

/-! ## Deeds -/

/-- What a move is done for. -/
inductive Deed where
  /-- Anything that concerns neither selections nor callbacks. -/
  | plain
  /-- A callback is attached. -/
  | attach
  /-- A client's command. -/
  | command (connection : ConnectionId) (originator : Originator)
  | connection (connection : ConnectionId) (event : ConnectionEvent)
  | start
  | stop
  | shutDown
  /-- Time passes. -/
  | time
  /-- The worker takes a task; a cancelled chain has no job. -/
  | work (job : Option Job)

/-- Deeds that callbacks reach. -/
def Deed.IsInner : Deed → Prop
  | .plain | .command .. | .connection .. | .stop => True
  | _ => False

/-- Deeds that a part of a run can be made of while no time passes: plain ones are always among
them. -/
structure Deed.Scope (deeds : Set Deed) : Prop where
  plain : .plain ∈ deeds
  inner : ∀ d ∈ deeds, d.IsInner

/-- The deeds that callbacks reach are a scope. -/
theorem Deed.scope_inner : Deed.Scope {d | d.IsInner} := ⟨trivial, fun _ hd => hd⟩

/-- Whether the deeds that an action of a callback leads to are among some deeds. -/
def Action.Within (deeds : Set Deed) : Action → Prop
  | .connection c e => .connection c e ∈ deeds
  | .inbound c f => .command c f.originator ∈ deeds
  | .stop => .stop ∈ deeds
  | _ => True

/-- Every action leads to deeds that callbacks reach. -/
theorem Action.within_inner (a : Action) : a.Within {d | d.IsInner} := by
  cases a <;> trivial

/-! ## Moves -/

namespace Server

/-- What the worker does at once with a job it has taken. Jobs that call callbacks go on with moves
of their own. -/
def undertake (s : Server) : Option Job → Server
  | some (.release station address created) => s.releaseExecuted station address created
  | some (.unselect held) => s.sendUnselect held
  | some (.duty .sweep) => s.dropExpired
  | _ => s

/-- A server **has confirmed** the execute of a client just now, having applied it at the same
instant to a point in select-and-execute mode. -/
structure HasConfirmed (s : Server) (c : ConnectionId) (m : Message) : Prop where
  frame : Message.ofFrame m.frame = .ok m
  command : m.type.isCommand = true
  execute : m.isExecute = true
  station : m.station ≠ globalAddress
  applied : ∃ id p, ⟨s.now, .applied c m.originator id m.station m.address⟩ ∈ s.journal ∧
    s.point? id = some p ∧ p.mode = .selectAndExecute
  confirmed : ∃ older,
    s.journal = ⟨s.now, .sent (.returned c (m.confirmation false))⟩ :: older

end Server

/-- One **move** of a server. -/
inductive Move : Deed → Server → Server → Prop where
  | note (s : Server) {e : Event} (h : e.isPlain = true) : Move .plain s (s.note e)
  | handOver (s : Server) {f : Sent} (h : f.concluded? = none) : Move .plain s (s.handOver f)
  | defer (s : Server) (delay : Int) {job : Job} (h : job.isPlain = true) :
      Move .plain s (s.defer delay job)
  | write (s : Server) (id : PointId) {f : Point → Point} (h : ∀ p : Point, p.SameAs (f p))
      (hc : ∀ p : Point, (f p).callbacks = p.callbacks) : Move .plain s (s.modifyPoint id f)
  | plant (s : Server) {q : Plant} (h : s.plant.Change s.now q) :
      Move .plain s { s with plant := q }
  | attach (s : Server) (id : PointId) (kind : PointCallback) (callback : Callback) :
      Move .attach s (s.setCallback id kind callback)
  | callbacks (s : Server) (callbacks : ServerCallbacks) : Move .attach s { s with callbacks }
  | connection (s : Server) (c : ConnectionId) (e : ConnectionEvent) :
      Move (.connection c e) s (s.onConnectionEvent c e)
  | start {s s' : Server} (h : s.start = .ok s') : Move .start s s'
  | stop (s : Server) : Move .stop s s.stop
  | stopExecutor (s : Server) : Move .shutDown s s.stopExecutor
  | pass (s : Server) (ms : Nat) : Move .time s (s.pass ms)
  /-- The worker takes the next task. -/
  | take {s : Server} {task : Task Job} {e : Executor Job}
      (h : s.executor.next? s.now = some (task, e)) :
      Move (.work (e.launch s.now task).2) s
        (Server.undertake { s with executor := (e.launch s.now task).1 }
          (e.launch s.now task).2)
  /-- A select is granted and confirmed. -/
  | grant {s : Server} {c : ConnectionId} {m : Message} {station : StationId} {id : PointId}
      {p : Point} (hm : m.cause = .activation) (hs : m.isSelect = true)
      (ht : s.target m = .ok (station, id, p)) (hty : p.type = m.type)
      (hmode : p.mode = .selectAndExecute)
      (hfree : s.selections.isTaken s.now (m.selection c s.now) = false) :
      Move (.command c m.originator) s
        ((s.grant (m.selection c s.now)).sendBack c (m.confirmation false))
  /-- A selection is released by its holder. -/
  | deactivate {s : Server} {held : Selection} (h : s.selections.isHeldBy s.now held = true) :
      Move (.command held.connection held.originator) s (s.deactivate held).1
  /-- A command is applied to a point. -/
  | apply {s : Server} {c : ConnectionId} {m : Message} {station : StationId} {id : PointId}
      {p : Point} (hm : m.cause ≠ .deactivation) (hs : m.isSelect = false)
      (ht : s.target m = .ok (station, id, p)) (hty : p.type = m.type)
      (hheld : p.mode = .selectAndExecute →
        s.selections.isHeldBy s.now (m.selection c s.now) = true) :
      Move (.command c m.originator) s (s.applied c m id)
  /-- An execute by selection is terminated and the release of the selection deferred. -/
  | conclude {s : Server} {c : ConnectionId} {m : Message} (h : s.HasConfirmed c m) :
      Move (.command c m.originator) s (s.concludeExecute c m)

/-- Several moves, all of them for deeds of a set. -/
def Moves (deeds : Set Deed) : Server → Server → Prop :=
  Relation.ReflTransGen fun s s' => ∃ d ∈ deeds, Move d s s'

namespace Moves

variable {deeds : Set Deed}

/-- Moving not at all. -/
theorem refl (s : Server) : Moves deeds s s := Relation.ReflTransGen.refl

/-- A single move. -/
theorem single {s s' : Server} {d : Deed} (hd : d ∈ deeds) (h : Move d s s') : Moves deeds s s' :=
  Relation.ReflTransGen.single ⟨d, hd, h⟩

/-- Moves one after the other. -/
theorem trans {s s' s'' : Server} (h : Moves deeds s s') (h' : Moves deeds s' s'') :
    Moves deeds s s'' := Relation.ReflTransGen.trans h h'

/-- More deeds allow more moves. -/
theorem mono {deeds' : Set Deed} (hsub : deeds ⊆ deeds') {s s' : Server} (h : Moves deeds s s') :
    Moves deeds' s s' :=
  Relation.ReflTransGen.mono (fun _ _ ⟨d, hd, hm⟩ => ⟨d, hsub hd, hm⟩) _ _ h

/-- What every move for some deeds keeps is kept by several of them. -/
theorem induction {P : Server → Prop} (hP : ∀ {s s' d}, d ∈ deeds → Move d s s' → P s → P s')
    {s s' : Server} (h : Moves deeds s s') (hs : P s) : P s' := by
  induction h with
  | refl => exact hs
  | tail _ hm ih =>
    obtain ⟨d, hd, hm⟩ := hm
    exact hP hd hm ih

end Moves

/-! ## Reachable and visited states -/

namespace Server

/-- The states that a run of a new server leads to. -/
inductive Reachable : Server → Prop where
  | new {options : Options} {transport : Transport} {now : Int} {s : Server}
      (h : Server.new options transport now = .ok s) : Reachable s
  | step {s : Server} (h : Reachable s) (i : Input) : Reachable (s.step i)

/-- The states that a run of a new server passes through: between two inputs, and while a callback
runs. -/
inductive Visited : Server → Prop where
  | new {options : Options} {transport : Transport} {now : Int} {s : Server}
      (h : Server.new options transport now = .ok s) : Visited s
  | move {s s' : Server} {d : Deed} (h : Visited s) (hm : Move d s s') : Visited s'

/-- A run leads from reachable states to reachable states. -/
theorem Reachable.run {s : Server} (h : s.Reachable) (inputs : List Input) :
    (s.run inputs).Reachable := by
  induction inputs generalizing s with
  | nil => exact h
  | cons i is ih => exact ih (h.step i)

/-- Moves lead from visited states to visited states. -/
theorem Visited.moves {deeds : Set Deed} {s s' : Server} (h : s.Visited) (hm : Moves deeds s s') :
    s'.Visited := hm.induction (fun _ m hs => hs.move m) h

end Server

end Telecontrol
