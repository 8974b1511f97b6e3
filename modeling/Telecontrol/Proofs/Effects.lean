import Mathlib.Data.List.Perm.Basic
import Telecontrol.Server.Run

/-! # What the operations of a server change

One equation for each operation that writes the journal, the queue of the executor or the transport
several times over: the state it leaves as one update of the state it found. Later proofs rewrite
with these equations and do not open the operations again.

Main statements: `Server.defer_eq`, `Server.dropSelections_eq`, `Server.dropExpired_eq`,
`Server.start_cases` and `Server.stop_eq`, for inputs that may be refused
`Server.step_addStation_cases` and its likes, and for the queue `Task.place_perm` and
`Executor.mem_queue_launch`. -/

namespace Telecontrol

/-! ## The queue of an executor -/

section Queue

variable {β : Type}

/-- Putting a task into the queue rearranges nothing but its place. -/
theorem Task.place_perm (t : Task β) (l : List (Task β)) : (Task.place t l).Perm (t :: l) := by
  induction l with
  | nil => exact .refl _
  | cons u rest ih =>
    rw [Task.place]
    split
    · exact .refl _
    · exact (ih.cons u).trans (.swap t u rest)

namespace Executor

/-- Work put into the queue joins what waits there. -/
theorem push_perm (e : Executor β) (due : Due) (work : Work β) :
    (e.push due work).queue.Perm ([⟨due, e.nextSeq, work⟩] ++ e.queue) := Task.place_perm ..

/-- Cancelling a chain leaves the queue as it is. -/
@[simp] theorem queue_cancel (e : Executor β) (chain : ChainId) :
    (e.cancel chain).queue = e.queue := rfl

/-- Cancelling chains leaves the queue as it is. -/
@[simp] theorem queue_foldl_cancel (e : Executor β) (chains : List ChainId) :
    (chains.foldl cancel e).queue = e.queue := by
  induction chains generalizing e with
  | nil => rfl
  | cons chain rest ih => rw [List.foldl_cons, ih, queue_cancel]

/-- Cancelling chains does not stop an executor. -/
@[simp] theorem running_foldl_cancel (e : Executor β) (chains : List ChainId) :
    (chains.foldl cancel e).running = e.running := by
  induction chains generalizing e with
  | nil => rfl
  | cons chain rest ih => rw [List.foldl_cons, ih]; rfl

/-- Launching a task does not stop the executor. -/
@[simp] theorem running_launch (e : Executor β) (now : Int) (t : Task β) :
    (e.launch now t).1.running = e.running := by
  obtain ⟨due, seq, work⟩ := t
  cases work with
  | once body => rfl
  | periodic chain interval body =>
    rw [launch]
    dsimp only
    split
    · rfl
    · split <;> rfl

/-- Launching a task that runs once leaves the queue as it is. -/
theorem launch_once (e : Executor β) (now : Int) {t : Task β} {body : β} (h : t.work = .once body) :
    e.launch now t = (e, some body) := by
  rw [launch, h]

/-- Launching a task puts nothing into the queue but the next run of its chain. -/
theorem mem_queue_launch {e : Executor β} {now : Int} {t u : Task β}
    (h : u ∈ (e.launch now t).1.queue) : u ∈ e.queue ∨ u.work = t.work := by
  obtain ⟨due, seq, work⟩ := t
  cases work with
  | once body => exact .inl h
  | periodic chain interval body =>
    rw [launch] at h
    dsimp only at h
    split at h
    · exact .inl h
    -- the chain goes on unless the executor has stopped meanwhile
    · split at h
      · rcases mem_push.mp h with rfl | hu
        · exact .inr rfl
        · exact .inl hu
      · exact .inl h

/-- The body that a launched task runs is the body of its work. -/
theorem body_of_launch {e : Executor β} {now : Int} {t : Task β} {body : β}
    (h : (e.launch now t).2 = some body) : t.work.body = body := by
  obtain ⟨due, seq, work⟩ := t
  cases work with
  | once b => exact Option.some.inj h
  | periodic chain interval b =>
    rw [launch] at h
    dsimp only at h
    split at h
    · cases h
    · split at h <;> exact Option.some.inj h

/-- Beginning a chain in one update. -/
theorem addPeriodic_eq_ok {e e' : Executor β} {now : Int} {interval : Nat} {body : β}
    {chain : ChainId} (h : e.addPeriodic now interval body = .ok (e', chain)) :
    chain = e.nextChain ∧
      e' = { e.push (.timed (now + interval)) (.periodic chain interval body) with
        nextChain := e.nextChain + 1 } := by
  rw [addPeriodic] at h
  split at h
  · cases h
  · split at h
    · obtain ⟨rfl, rfl⟩ := Prod.mk.inj (Except.ok.inj h)
      exact ⟨rfl, rfl⟩
    · cases h

/-- Beginning a chain puts its first run into the queue of a running executor. -/
theorem queue_addPeriodic {e e' : Executor β} {now : Int} {interval : Nat} {body : β}
    {chain : ChainId} (h : e.addPeriodic now interval body = .ok (e', chain)) :
    e'.running = e.running ∧
      e'.queue = Task.place ⟨.timed (now + interval), e.nextSeq, .periodic chain interval body⟩
        e.queue := by
  obtain ⟨-, rfl⟩ := addPeriodic_eq_ok h
  exact ⟨rfl, rfl⟩

end Executor

end Queue

namespace Server

/-! ## Deferring -/

/-- Work is put into the queue of a running executor and reported as rejected by a stopped one. -/
theorem defer_eq (s : Server) (delay : Int) (job : Job) :
    s.defer delay job =
      if s.executor.running then
        { s with executor := s.executor.push (.ofDelay delay s.now) (.once job) }
      else s.report (.task .rejected) := by
  cases h : s.executor.running <;> simp [defer, Executor.add, h]

section Defer

variable (s : Server) (delay : Int) (job : Job)

/-- Deferring a job leaves the selections as they are. -/
@[simp] theorem selections_defer : (s.defer delay job).selections = s.selections := by
  rw [defer_eq]; split <;> rfl

/-- Deferring puts nothing into the queue but the job. -/
theorem mem_queue_defer {t : Task Job} (h : t ∈ (s.defer delay job).executor.queue) :
    t.due = .ofDelay delay s.now ∧ t.work = .once job ∨ t ∈ s.executor.queue := by
  rw [defer_eq] at h
  split at h
  · exact (Executor.mem_push.mp h).imp_left fun e => by rw [e]; exact ⟨rfl, rfl⟩
  · exact .inr h

end Defer

/-! ## Ends of selections -/

/-- Noting ends only writes the journal. -/
theorem noteEnds_eq (s : Server) (ended : List Selection) (why : SelectionEnd) :
    s.noteEnds ended why =
      { s with
        journal := (ended.reverse.map fun held => ⟨s.now, .ended held why⟩) ++ s.journal } := by
  rw [noteEnds]
  induction ended generalizing s with
  | nil => rfl
  | cons held rest ih =>
    rw [List.foldl_cons, ih]
    simp [note]

/-- Dropping the selections of a connection notes their ends and takes them out of the table. -/
theorem dropSelections_eq (s : Server) (c : ConnectionId) :
    s.dropSelections c =
      { s with
        selections := s.selections.removeConnection c
        journal := ((s.selections.heldThrough c).reverse.map fun held =>
          ⟨s.now, .ended held .closed⟩) ++ s.journal } := by
  rw [dropSelections, noteEnds_eq]

/-- Telling the holders of selections that these have expired, while the executor runs: the journal
gets their ends and the queue one task for each. -/
theorem tellExpired_eq {s : Server} (h : s.executor.running = true) (l : List Selection) :
    ∃ (e : Executor Job) (tasks : List (Task Job)),
      l.foldl (fun s held => (s.note (.ended held .expired)).defer (-1) (.unselect held)) s =
        { s with
          executor := e
          journal := (l.reverse.map fun held => ⟨s.now, .ended held .expired⟩) ++ s.journal } ∧
      e.running = true ∧ e.queue.Perm (tasks ++ s.executor.queue) ∧
      tasks.map (·.work) = l.reverse.map fun held => .once (.unselect held) := by
  induction l generalizing s with
  | nil => exact ⟨s.executor, [], rfl, h, .refl _, rfl⟩
  | cons held rest ih =>
    -- the first selection is noted and its task deferred; the rest goes on from there
    let e₁ := s.executor.push .immediate (.once (.unselect held))
    have hdefer : (s.note (.ended held .expired)).defer (-1) (.unselect held) =
        { s with
          executor := e₁
          journal := ⟨s.now, .ended held .expired⟩ :: s.journal } := by
      rw [defer_eq, if_pos (show (s.note _).executor.running = true from h)]
      rfl
    obtain ⟨e, tasks, hfold, hrun, hperm, hworks⟩ :=
      @ih { s with executor := e₁, journal := ⟨s.now, .ended held .expired⟩ :: s.journal } h
    let t : Task Job := ⟨.immediate, s.executor.nextSeq, .once (.unselect held)⟩
    refine ⟨e, tasks ++ [t], ?_, hrun, ?_, ?_⟩
    · rw [List.foldl_cons, hdefer, hfold]
      simp
    · refine hperm.trans ?_
      rw [List.append_assoc]
      exact (Task.place_perm t s.executor.queue).append_left tasks
    · rw [List.map_append, hworks]
      simp [t]

/-- Dropping the expired selections in one update, while the executor runs. -/
theorem dropExpired_eq {s : Server} (h : s.executor.running = true) :
    ∃ (e : Executor Job) (tasks : List (Task Job)),
      s.dropExpired =
        { s with
          selections := s.selections.sweep s.now
          executor := e
          journal := ((Selection.byConnection (s.selections.expired s.now)).reverse.map fun held =>
            ⟨s.now, .ended held .expired⟩) ++ s.journal } ∧
      e.running = true ∧ e.queue.Perm (tasks ++ s.executor.queue) ∧
      tasks.map (·.work) = (Selection.byConnection (s.selections.expired s.now)).reverse.map
        fun held => .once (.unselect held) :=
  @tellExpired_eq { s with selections := s.selections.sweep s.now } h _

/-- What holds once the expired selections are gone, and is kept while their holders are told, holds
after the sweep has dropped the expired selections. -/
theorem dropExpired_induction {P : Server → Prop} (s : Server)
    (h : P { s with selections := s.selections.sweep s.now })
    (hstep : ∀ (u : Server), ∀ held ∈ s.selections.expired s.now, P u →
      P ((u.note (.ended held .expired)).defer (-1) (.unselect held))) : P s.dropExpired := by
  rw [dropExpired]
  exact List.foldlRecOn _ _ h fun u hu held hm =>
    hstep u held (Selection.mem_byConnection.mp hm) hu

/-- An event of a connection in one update. -/
theorem onConnectionEvent_eq (s : Server) (c : ConnectionId) (e : ConnectionEvent) :
    s.onConnectionEvent c e =
      { s with
        connections := s.connections.onEvent c e
        selections := if e = .closed then s.selections.removeConnection c else s.selections
        journal := ⟨s.now, .notice (.connection c e (s.connections.onEvent c e).activeCount)⟩ ::
          (if e = .closed then ((s.selections.heldThrough c).reverse.map fun held =>
            ⟨s.now, .ended held .closed⟩) ++ s.journal else s.journal) } := by
  rw [onConnectionEvent]
  split
  · rw [dropSelections_eq]; rfl
  · rfl

/-- The events of connections leave the executor as it is. -/
@[simp] theorem executor_onConnectionEvent (s : Server) (c : ConnectionId) (e : ConnectionEvent) :
    (s.onConnectionEvent c e).executor = s.executor := by
  rw [onConnectionEvent_eq]

/-- Giving up an executed selection leaves the executor as it is. -/
@[simp] theorem executor_releaseExecuted (s : Server) (station : CommonAddress)
    (address : ObjectAddress) (created : Int) :
    (s.releaseExecuted station address created).executor = s.executor := by
  rw [releaseExecuted]
  cases s.selections.createdAt? station address created <;> rfl

/-- Ending a selection leaves the executor as it is. -/
@[simp] theorem executor_deactivate (s : Server) (held : Selection) :
    (s.deactivate held).1.executor = s.executor := by
  rw [deactivate]
  split
  · cases s.selections.find? held.station held.address <;> rfl
  · rfl

/-- Releasing a selection that is held in one update. -/
theorem deactivate_eq {s : Server} {held g : Selection}
    (h : s.selections.isHeldBy s.now held = true)
    (hg : s.selections.find? held.station held.address = some g) :
    (s.deactivate held).1 =
      { s with
        selections := s.selections.remove held.station held.address
        journal := ⟨s.now, .ended g .deactivated⟩ :: s.journal } := by
  rw [deactivate, if_pos h, hg]
  rfl

/-- An execute of a point, which is not at the global address, is concluded by one termination. -/
theorem concludeExecute_eq {s : Server} {c : ConnectionId} {m : Message}
    (h : m.station ≠ globalAddress) :
    s.concludeExecute c m =
      match s.selections.find? m.station m.address with
      | none => s.sendBack c m.termination
      | some held => (s.sendBack c m.termination).defer releaseDelay
          (.release m.station m.address held.created) := by
  have hback : s.terminate c m = s.sendBack c m.termination := if_neg h
  rw [concludeExecute, hback]
  rfl

/-! ## Starting and stopping -/

/-- Starting leaves a running server alone; otherwise the first runs of both duties are put into the
queue. -/
theorem start_cases {s s' : Server} (h : s.start = .ok s') :
    s' = s ∨ ∃ (e₁ e₂ : Executor Job) (c₁ c₂ : ChainId),
      s.executor.addPeriodic s.now s.options.tickRate (.duty .inventory) = .ok (e₁, c₁) ∧
      e₁.addPeriodic s.now s.options.tickRate (.duty .sweep) = .ok (e₂, c₂) ∧
      s' = { s with
        running := true
        executor := e₂
        duties := s.duties ++ [c₁] ++ [c₂]
        journal := ⟨s.now, .notice (.started s.options.tickRate)⟩ :: s.journal } := by
  rw [start] at h
  split at h
  · exact .inl (Except.ok.inj h).symm
  · simp only [beginDuty, bind, Except.bind, pure, Except.pure] at h
    -- the duties begin one after the other, and starting fails when either cannot begin
    cases h₁ : s.executor.addPeriodic s.now s.options.tickRate (.duty .inventory) with
    | error e => simp [h₁] at h
    | ok r₁ =>
      cases h₂ : r₁.1.addPeriodic s.now s.options.tickRate (.duty .sweep) with
      | error e => simp [h₁, h₂] at h
      | ok r₂ =>
        simp only [h₁, h₂] at h
        exact .inr ⟨r₁.1, r₂.1, r₁.2, r₂.2, rfl, h₂, (Except.ok.inj h).symm⟩

/-- Closing connections only writes the journal and tells the transport. -/
theorem closeAll_eq (s : Server) (cs : List ConnectionId) :
    cs.foldl close s =
      { s with
        transport := cs.foldl Transport.close s.transport
        journal := (cs.reverse.map fun c => ⟨s.now, .closed c⟩) ++ s.journal } := by
  induction cs generalizing s with
  | nil => rfl
  | cons c rest ih =>
    rw [List.foldl_cons, ih]
    simp [close, note]

/-- Stopping a running server in one update. -/
theorem stop_eq {s : Server} (h : s.running = true) :
    s.stop =
      { s with
        running := false
        executor := s.duties.foldl Executor.cancel s.executor
        duties := []
        connections := .none
        selections := s.selections.clear
        transport := s.connections.list.foldl Transport.close s.transport
        journal := ⟨s.now, .notice .stopped⟩ ::
          ((s.selections.entries.values.reverse.map fun held => ⟨s.now, .ended held .stopped⟩) ++
            ((s.connections.list.reverse.map fun c => ⟨s.now, .closed c⟩) ++ s.journal)) } := by
  rw [stop, if_pos h]
  simp only [Connections.clear, closeAll_eq, noteEnds_eq, report, note]

/-- Stopping leaves the queue as it is. -/
@[simp] theorem queue_stop (s : Server) : s.stop.executor.queue = s.executor.queue := by
  cases h : s.running with
  | false => rw [stop_of_not_running h]
  | true => rw [stop_eq h]; exact Executor.queue_foldl_cancel ..

/-- Stopping the executor puts nothing into the queue. -/
theorem mem_queue_stopExecutor {s : Server} {t : Task Job}
    (h : t ∈ s.stopExecutor.executor.queue) : t ∈ s.executor.queue := by
  rw [stopExecutor] at h
  split at h
  · cases h
  · exact h

/-- The action that transmits the point it belongs to: the point is sent and the result noted, or
nothing happens. -/
theorem perform_transmit (inlet : Inlet) (own : Option PointId) (cause : Cause) :
    ∃ f : Server → Server, perform inlet own (.transmit cause) = modify f ∧ ∀ s, f s = s ∨
      ∃ id result, own = some id ∧
        f s = (s.transmitPoint id cause none).1.note (.transmitted result) := by
  refine ⟨_, rfl, fun s => ?_⟩
  cases own with
  | none => exact .inl rfl
  | some id =>
    simp only [Option.map_some]
    split
    · rename_i u result hu
      exact .inr ⟨id, result, rfl, by rw [Option.some.inj hu]⟩
    · exact .inl rfl

/-- A new server in one update. -/
theorem new_eq_ok {options : Options} {transport : Transport} {now : Int} {s : Server}
    (h : Server.new options transport now = .ok s) :
    s = (init options transport now).report (.task .started) := by
  rw [Server.new] at h
  split at h
  · cases h
  · split at h
    · cases h
    · exact (Except.ok.inj h).symm

/-! ## Inputs that may come to nothing -/

/-- A request changes nothing, but for what is noted about it. -/
theorem step_request_cases (s : Server) (peer : String) :
    s.step (.request peer) = s ∨
      s.step (.request peer) = s.report (.peerRefused peer s.options.maxOpen) ∨
      s.step (.request peer) = s.note (.requested peer) := by
  show (s.onRequest peer).1 = s ∨ (s.onRequest peer).1 = _ ∨ (s.onRequest peer).1 = _
  rw [onRequest]
  split
  · exact .inr (.inl rfl)
  · split
    · exact .inl rfl
    · exact .inr (.inr rfl)

/-- Octets are deferred to their callback, or dropped. -/
theorem step_octets_cases (s : Server) (c : ConnectionId) (data : List UInt8) (sent : Bool) :
    s.step (.octets c data sent) = s ∨
      s.step (.octets c data sent) = s.defer (-1) (.octets sent c data) := by
  show s.onOctets c data sent = s ∨ s.onOctets c data sent = _
  rw [onOctets]
  split
  · exact .inr rfl
  · exact .inl rfl

/-- A station is added to the plant, or refused. -/
theorem step_addStation_cases (s : Server) (station : CommonAddress) :
    s.step (.addStation station) = s ∨ ∃ q id, s.plant.addStation station = .ok (q, id) ∧
      s.step (.addStation station) = { s with plant := q }.report (.stationAdded station) := by
  show s.orSame ((s.addStation station).map (·.1)) = s ∨ ∃ q id, _ ∧
    s.orSame ((s.addStation station).map (·.1)) = _
  rw [addStation]
  cases s.plant.addStation station with
  | error e => exact .inl rfl
  | ok r => exact .inr ⟨r.1, r.2, rfl, rfl⟩

/-- A station is removed from the plant, or there is none. -/
theorem step_removeStation_cases (s : Server) (station : CommonAddress) :
    s.step (.removeStation station) = s ∨ ∃ q, s.plant.removeStation station = some q ∧
      s.step (.removeStation station) = { s with plant := q }.report (.stationRemoved station) := by
  show (s.removeStation station).1 = s ∨ ∃ q, _ ∧ (s.removeStation station).1 = _
  rw [removeStation]
  cases s.plant.removeStation station with
  | none => exact .inl rfl
  | some q => exact .inr ⟨q, rfl, rfl⟩

/-- A point is added to the plant, or refused. -/
theorem step_addPoint_cases (s : Server) (id : StationId) (spec : PointSpec) :
    s.step (.addPoint id spec) = s ∨ ∃ q h, s.plant.addPoint id s.now spec = .ok (q, h) ∧
      s.step (.addPoint id spec) = { s with plant := q } := by
  show s.orSame (s.addPoint id spec) = s ∨ ∃ q h, _ ∧ s.orSame (s.addPoint id spec) = _
  rw [addPoint]
  cases s.plant.addPoint id s.now spec with
  | error e => exact .inl rfl
  | ok r => exact .inr ⟨r.1, r.2, rfl, rfl⟩

end Server

end Telecontrol
