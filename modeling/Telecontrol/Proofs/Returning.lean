import Telecontrol.Proofs.Lasting
import Telecontrol.Proofs.Ordering
import Telecontrol.Proofs.Packing
import Telecontrol.Proofs.Silence

/-! # Points that return

An execute may have another point of the station **return**: its value is sent once more, by a task
that comes later. The decision is taken when the receive callback has answered; the task keeps the
handle of the point, and looks at the point, at the connections and at the server only when it runs.

Main statements: `Server.returnPoint_eq` and `Server.step_autoReturn` (what the task does),
and `Server.point_returns` (when there is such a task, and what becomes of it whatever happens in
between). -/

namespace Telecontrol

namespace Server

variable {s u : Server} {h : Handle} {id : PointId} {p : Point}

/-! ## The task -/

/-- The frame that has a point **returned**: the point as it is now, if its handle still resolves,
the server runs and some connection is active. -/
def returned? (s : Server) (h : Handle) : Option Frame :=
  if s.running && 0 < s.connections.activeCount then
    (s.plant.points.get? h).map fun p =>
      { type := p.type
        cause := .returnInfoRemote
        station := p.station
        objects := [p.shown s.now] }
  else none

/-- Every point is of a type that points may have. -/
theorem Visited.isPointType (hs : s.Visited) (hp : s.point? id = some p) :
    p.type.isPointType = true := by
  induction hs generalizing p with
  | new h =>
    obtain rfl := new_eq_ok h
    simp [point?, report, note, init, Plant.empty, PointStore.point?, PointStore.empty] at hp
  | move _ hm ih =>
    rcases hm.alters.follows.known hp with ⟨a, ha, hsame, -⟩ | ⟨_, _, spec, hspec, rfl⟩
    · rw [hsame.type]
      exact ih ha
    · exact hspec.isPointType

/-- The frame of one point holds the point. -/
theorem frameOf_eq (s : Server) (p : Point) (cause : Cause) :
    s.frameOf p cause =
      { type := p.type, cause, station := p.station, objects := [p.shown s.now] } := by
  rw [frameOf, Frame.tryAdd_of_empty rfl]
  rfl

/-- Having a point return puts its frame into the queue of the transport, or does nothing. -/
theorem returnPoint_eq (htype : ∀ p, s.plant.points.get? h = some p → p.type.isPointType = true) :
    s.returnPoint h = (s.returned? h).elim s fun f => s.handOver (.queued f) := by
  have hreturned : s.returned? h = if s.canSend then (s.plant.points.get? h).map fun p =>
      { type := p.type, cause := .returnInfoRemote, station := p.station
        objects := [p.shown s.now] } else none := rfl
  rw [returnPoint, hreturned]
  cases hget : s.plant.points.get? h with
  | none => cases s.canSend <;> rfl
  | some p =>
    dsimp only
    rw [transmit, if_pos (htype p hget), send, frameOf_eq]
    cases hsend : s.canSend <;> rfl

/-- The worker takes the task, which is gone then, and has the point return by handing over its
frame, or by nothing. -/
theorem step_autoReturn (hs : s.Visited) (hjob : s.nextJob? = some (.autoReturn h)) :
    (∃ t : Task Job, t.work = .once (.autoReturn h) ∧ s.returns = t :: (s.step .work).returns) ∧
      (s.step .work).handed = ((s.returned? h).map Sent.queued).toList ++ s.handed ∧
      (s.step .work).transport =
        (s.returned? h).elim s.transport fun f => s.transport.accept (.queued f) := by
  obtain ⟨task, e, hnext, hlaunch⟩ := next?_of_nextJob? hjob
  have hstep : s.step .work = (s.taking task e).returnPoint h := by
    show s.work?.getD s = _
    rw [(work?_eq hnext).2, hjob]
    rfl
  -- taking the task touches nothing that the frame depends on
  have htaking := s.mute_taking task e
  have hplant : (s.taking task e).plant = s.plant := (s.noteLateness_fields task).2.1
  have hreturned : (s.taking task e).returned? h = s.returned? h := by
    rw [taking, noteLateness_eq]
    split <;> rfl
  have htype (p : Point) (hp : (s.taking task e).plant.points.get? h = some p) :
      p.type.isPointType = true := by
    rw [hplant] at hp
    obtain ⟨i, -, hi⟩ := Option.bind_eq_some_iff.mp hp
    exact hs.isPointType hi
  obtain ⟨-, -, hqueue, -⟩ := (Executor.next?_eq_some_iff ..).mp hnext
  have hwork : task.work = .once (.autoReturn h) := by
    have hbody := Executor.body_of_launch hlaunch
    have hroutine := hs.wellFormed.routine task (hqueue ▸ List.mem_cons_self)
    cases hw : task.work with
    | once body =>
      rw [hw] at hbody
      exact congrArg Work.once hbody
    | periodic chain interval body =>
      -- only duties are periodic
      rw [hw] at hbody hroutine
      obtain ⟨duty, hduty⟩ := hroutine
      cases hduty.symm.trans hbody
  have htaken : s.returns = task :: (s.taking task e).returns := by
    rw [returns, hqueue, List.filter_cons_of_pos (by rw [hwork]; rfl), returns, taking,
      Executor.launch_once e s.now hwork]
  rw [hstep, returnPoint_eq htype, hreturned]
  cases s.returned? h with
  | none => exact ⟨⟨task, hwork, htaken⟩, htaking.handed, htaking.transport⟩
  | some f =>
    exact ⟨⟨task, hwork, htaken⟩, congrArg (Sent.queued f :: ·) htaking.handed,
      congrArg (·.accept (.queued f)) htaking.transport⟩

/-! ## Between the order and the task -/

/-- A server **carries out** the return of a point whose handle was listed in an earlier state: what
its worker does, and which point that is. -/
structure CarriesOut (s u : Server) (h : Handle) : Prop where
  /-- The task is taken from those that wait. -/
  taken : ∃ t : Task Job, t.work = .once (.autoReturn h) ∧ s.returns = t :: (s.step .work).returns
  /-- One frame is handed over, or none. -/
  handed : (s.step .work).handed = ((s.returned? h).map Sent.queued).toList ++ s.handed
  transport : (s.step .work).transport =
    (s.returned? h).elim s.transport fun f => s.transport.accept (.queued f)
  /-- If the handle resolved to a point and this still lives, it is the point that returns. -/
  live : ∀ {i p}, u.plant.points.resolve? h = some i → u.point? i = some p →
    (∃ h', s.plant.points.resolve? h' = some i) →
    s.plant.points.resolve? h = some i ∧ ∃ q, s.plant.points.get? h = some q ∧ p.SameAs q
  /-- No other point returns in its place, unless 2^32 points were made in the meantime. -/
  other : ∀ {i j}, u.plant.points.resolve? h = some i → s.plant.points.resolve? h = some j →
    j = i ∨ u.plant.points.points.size + 2 ^ 32 ≤ s.plant.points.points.size
  /-- If the handle resolved to nothing, nothing returns, unless as many points were ever made. -/
  vacant : u.plant.points.resolve? h = none →
    s.plant.points.resolve? h = none ∨ 2 ^ 32 ≤ s.plant.points.points.size

/-- Any number of moves after the handle was listed, the server carries out the return. -/
theorem carriesOut {station : StationId} {a : ObjectAddress} (hu : u.Visited)
    (hlisted : u.plant.handle? station a = some h) (hm : Moves Set.univ u s)
    (hjob : s.nextJob? = some (.autoReturn h)) : s.CarriesOut u h where
  taken := (step_autoReturn (hu.moves hm) hjob).1
  handed := (step_autoReturn (hu.moves hm) hjob).2.1
  transport := (step_autoReturn (hu.moves hm) hjob).2.2
  live {i p} hi hp hlives := by
    have hs := (hu.lasts hi hm).resolve?_iff.mpr hlives
    obtain ⟨q, hq, hpq⟩ := hm.kept hp
    exact ⟨hs, q, Option.bind_eq_some_iff.mpr ⟨i, hs, hq⟩, hpq⟩
  other hi hj := (hu.lasts hi hm).eq_of_resolve? hj
  vacant hnone := by
    by_cases hlt : s.plant.points.points.size < 2 ^ 32
    · exact .inl (hu.resolve?_none hlisted hnone hm hlt)
    · exact .inr (Nat.le_of_not_lt hlt)

/-- **Points that return.** In every state of a run, also while callbacks run: a frame that orders a
return relays until its answer is given, and then exactly one task is put into the queue, due at
once, that has the point return which is listed then. Every other frame relays, so that it has no
point return but by the frames that callbacks hand in, and for these the same holds. Whatever
happens between the order and its task: the task hands over exactly one frame, with the point as it
is then, if the very point lives, the server runs and some connection is active, and otherwise none.
A point that was made in the meantime is never sent in its place, unless 2^32 were made and the
generation of its slot has come round. -/
theorem point_returns :
    (∀ {s₀ s : Server}, s₀.Reachable → Moves {d | d ≠ .shutDown} s₀ s →
      ∀ (depth : Nat) (c : ConnectionId) (f : WireFrame),
        (∀ m u h, s.running = true → Message.ofFrame f = .ok m →
          s.Orders (receiveWithin depth) c m u h →
          Relays (receiveWithin depth) s u ∧
          Moves {d | d.IsInner} u ((receiveWithin (depth + 1) c f).after s) ∧
          ∃ t : Task Job, t.due = .timed u.now ∧ t.work = .once (.autoReturn h) ∧
            ((receiveWithin (depth + 1) c f).after s).returns.Perm (t :: u.returns)) ∧
        ((∀ m u h, s.running = true → Message.ofFrame f = .ok m →
          ¬ s.Orders (receiveWithin depth) c m u h) →
          Relays (receiveWithin depth) s ((receiveWithin (depth + 1) c f).after s))) ∧
    ∀ {u s : Server} {station : StationId} {a : ObjectAddress} {h : Handle}, u.Visited →
      u.plant.handle? station a = some h → Moves Set.univ u s →
      s.nextJob? = some (.autoReturn h) → s.CarriesOut u h := by
  refine ⟨fun {s₀ s} h₀ hm depth c f => ?_, fun hu hlisted hm hjob => carriesOut hu hlisted hm hjob⟩
  have hs := (h₀.visited.moves hm).wellFormed
  have hin := passes_receiveWithin Deed.scope_inner depth
  -- the frame orders a return, or it does not
  refine ⟨fun m u h hrun hf ho => ?_, fun hnone => ?_⟩
  · exact receive_of_orders hin hs hrun
      (hm.executor_running_of_running h₀.executor_running hrun) hf ho
  · exact relays_receive hin (fun hrun m u h hf => hnone m u h hrun hf) hs

end Server

namespace Sample

/-- The sample site is started with a command point, whose execute has another point return, and
the client connects and begins to receive. -/
def linked : Server := site.run [.start, .addStation 1,
  .addPoint 0 { address := 100, type := .C_SC_NA_1, related := some 101, autoReturn := true },
  .addPoint 0 { address := 101, type := .M_SP_NA_1 },
  .connection client .opened, .connection client .activated]

/-- The client has executed the command, and the task of the return waits. -/
def ordered : Server := linked.step execute

/-- The linked point is removed, and another one is added at its address, before the task runs. -/
def replaced : Server :=
  ordered.run [.removePoint 0 101, .addPoint 0 { address := 101, type := .M_SP_NA_1 }]

end Sample

namespace Server

/-- At the sample site one task is put into the queue and hands over one frame; when the linked
point was replaced in the meantime, it hands over none. -/
theorem sample_point_returns :
    ∃ u, Sample.linked.Orders (receiveWithin 999) Sample.client (Sample.command false) u ⟨1, 0⟩ ∧
      (∃ t : Task Job, t.work = .once (.autoReturn ⟨1, 0⟩) ∧
        Sample.ordered.returns.Perm (t :: u.returns)) ∧
      Sample.ordered.CarriesOut u ⟨1, 0⟩ ∧
      (Sample.ordered.step .work).handed = .queued
        { type := .M_SP_NA_1, cause := .returnInfoRemote, station := 1
          objects := [{ address := 101 }] } :: Sample.ordered.handed ∧
      Sample.replaced.CarriesOut u ⟨1, 0⟩ ∧
      (Sample.replaced.step .work).handed = Sample.replaced.handed := by
  have hlinked : Sample.linked.Reachable := (Reachable.new Sample.new_site).run _
  let u := Sample.linked.applied Sample.client (Sample.command false) 0
  have ho : Sample.linked.Orders (receiveWithin 999) Sample.client (Sample.command false) u
      ⟨1, 0⟩ :=
    ⟨rfl, rfl, 0, 0, (Sample.linked.point? 0).get rfl, 101, rfl, rfl, rfl, rfl, rfl⟩
  obtain ⟨hrelays, hmoves, t, -, ht, hreturns⟩ :=
    (point_returns.1 hlinked (.refl _) 999 Sample.client (Sample.command false).frame).1
      (Sample.command false) u ⟨1, 0⟩ rfl rfl ho
  have hafter : (receiveWithin (999 + 1) Sample.client (Sample.command false).frame).after
      Sample.linked = Sample.ordered := (outside_eq_after ..).symm
  rw [hafter] at hmoves hreturns
  have hin := passes_receiveWithin Deed.scope_inner 999
  have hu : u.Visited := hlinked.visited.moves (hrelays.moves hin hlinked.visited.wellFormed)
  have hordered : Moves Set.univ u Sample.ordered := hmoves.mono (Set.subset_univ _)
  have hreplaced : Moves Set.univ u Sample.replaced :=
    hordered.trans ((hu.moves hordered).moves_run _)
  have hlisted : u.plant.handle? 0 101 = some ⟨1, 0⟩ := rfl
  have hfirst := point_returns.2 hu hlisted hordered (by decide +kernel)
  have hsecond := point_returns.2 hu hlisted hreplaced (by decide +kernel)
  exact ⟨u, ho, ⟨t, ht, hreturns⟩, hfirst, hfirst.handed, hsecond, hsecond.handed⟩

end Server

end Telecontrol
