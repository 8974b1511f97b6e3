import Telecontrol.Proofs.Backing
import Telecontrol.Proofs.Bookkeeping
import Telecontrol.Proofs.Tame

/-! # What steps do for one point

How often a step reports a point and how many calls of its timer callback it defers, counted from
what is sent and from what waits. At a tame server both numbers are one or zero, and each mark of
the point is moved exactly when its number is one.

Main statements: `Server.Reachable.canSend_iff` (what an inventory finds),
`Server.Tame.reports_step` and `Server.Tame.calls_step`. -/

namespace Telecontrol

namespace Plant

variable {p q : Plant} {h : Handle} {i : PointId}

/-- A handle **belongs** to a point: it resolves to no other, and no other resolves to the point. -/
structure Belongs (p : Plant) (h : Handle) (i : PointId) : Prop where
  eq_id : ∀ {j}, p.points.resolve? h = some j → j = i
  eq_handle : ∀ {h'}, p.points.resolve? h' = some i → h' = h

/-- The handle with which a point was made belongs to it while generations do not wrap. -/
theorem Lasts.belongs (hl : p.Lasts q h i) (hlt : q.points.points.size < 2 ^ 32) :
    q.Belongs h i where
  eq_id hj := (hl.eq_of_resolve? hj).resolve_right (by omega)
  eq_handle hi := by
    obtain ⟨hindex, hgen⟩ := hl.held ((Registry.get?_eq_some_iff ..).mp hi)
    exact Registry.handle_eq hindex hgen

end Plant

namespace Server

variable {s : Server} {inp : Input} {i : PointId} {h : Handle} {p : Point}

/-- The mark of the last report is that of the point. -/
theorem reportedAt?_of_point? (hp : s.point? i = some p) :
    s.plant.reportedAt? i = some p.reportedAt := congrArg (Option.map Point.reportedAt) hp

/-- The mark of the last timer call is that of the point. -/
theorem timerAt?_of_point? (hp : s.point? i = some p) :
    s.plant.timerAt? i = some p.timerAt := congrArg (Option.map Point.timerAt) hp

/-! ## Inventories -/

/-- A server whose executor runs is staffed. -/
theorem Reachable.staffed (hs : s.Reachable) (hrun : s.executor.running = true) : s.Staffed := by
  induction hs with
  | new h => exact staffed_new h
  | @step s hs inp ih =>
    by_cases hdown : inp = .shutDown
    · subst hdown
      have hrun : s.stop.stopExecutor.executor.running = true := hrun
      rw [stopExecutor] at hrun
      split at hrun
      · cases hrun
      · contradiction
    · have hm := moves_of_step hs.visited.wellFormed hdown
      exact (ih (hm.executor_running ▸ hrun)).moves hm

/-- The table of the connections counts those that are active. -/
theorem Visited.counted (hs : s.Visited) : s.connections.Counted := by
  induction hs with
  | new h =>
    obtain rfl := new_eq_ok h
    exact Connections.counted_none
  | @move s s' d _ hm ih =>
    cases d with
    | connection c e =>
      cases hm
      rw [onConnectionEvent_eq]
      exact ih.onEvent c e
    | start =>
      cases hm with
      | start h => obtain rfl | ⟨_, _, _, _, -, -, rfl⟩ := start_cases h <;> exact ih
    | stop =>
      cases hm
      cases hrun : s.running with
      | false => rwa [stop_of_not_running hrun]
      | true =>
        rw [stop_eq hrun]
        exact Connections.counted_none
    -- all other moves leave the connections alone
    | _ => exact (hm.internal trivial).2 ▸ ih

/-- An inventory finds that frames can be sent exactly when some connection is active. -/
theorem Reachable.canSend_iff (hs : s.Reachable) (hjob : s.nextJob? = some (.duty .inventory)) :
    s.canSend = true ↔ ∃ c, s.connections.isActive c = true := by
  have hcounted := hs.visited.counted
  obtain ⟨_, _, hnext, -⟩ := next?_of_nextJob? hjob
  have hstaffed := hs.staffed ((Executor.next?_eq_some_iff ..).mp hnext).1
  rw [canSend, (hstaffed.next?_of_duty hjob).1, Bool.true_and, decide_eq_true_eq]
  constructor
  · intro hpos
    obtain ⟨c, hc⟩ := Finset.card_pos.mp (hcounted.symm ▸ hpos)
    exact ⟨c, Connections.mem_activeOnes.mp hc⟩
  · rintro ⟨c, hc⟩
    exact hcounted.activeCount_pos hc

/-! ## Reports -/

/-- How often a step reports a point cyclically, unless the application itself sends. A frame tells
a point by its address, which can be that of another point unless a station on the roster lists this
one. -/
def reportsIn (i : PointId) (s : Server) (inp : Input) : Nat :=
  if inp.isSending || !s.plant.attends globalAddress i then 0
  else (s.point? i).elim 0 fun p => (s.step inp).reportsOf p - s.reportsOf p

/-- Whether a step asks for a cyclic report that goes out. -/
def reportsBy (i : PointId) (s : Server) (inp : Input) : Bool :=
  (inp.asks? s).any fun ca => s.reportsNow ca i

/-- A point is reported at most once in a step, and marked exactly when it is reported. -/
theorem Tame.reports_step (hs : s.Tame) (hlt : s.plant.points.points.size < 2 ^ 32)
    (hinp : inp.IsModest) (hmarks : ¬ inp.Marks i) (hp : s.point? i = some p) :
    s.reportsIn i inp = (if s.reportsBy i inp then 1 else 0) ∧
      (s.step inp).plant.reportedAt? i =
        some (if s.reportsBy i inp then clockCount s.now else p.reportedAt) := by
  have hv := hs.reachable.visited
  have hmark := reportedAt?_of_point? hp
  have hsize : ∀ j ∈ ({i} : Set PointId), j < s.plant.points.points.size := by
    rintro _ rfl
    exact (Array.getElem?_eq_some_iff.mp hp).1
  have hnone (hitems : inp.isSending = false → (s.step inp).cyclicItems = s.cyclicItems) :
      s.reportsIn i inp = 0 := by
    rw [reportsIn, hp]
    cases hown : inp.isSending with
    | true => rfl
    | false =>
      rw [Option.elim_some, reportsOf, hitems hown, reportsOf, Nat.sub_self, ite_self]
  rcases time_cases {i} hv.wellFormed (hs.poised hlt).modest (hv.orderly hlt) hsize hinp
      (fun _ hj => hj ▸ hmarks) with
    ⟨rfl, hjob, hticks⟩ | ⟨ca, hasks, hcycles⟩ | ⟨hasks, -, gone, hidles, -⟩
  · have hby : s.reportsBy i .work = false := by
      rw [reportsBy, Input.asks?, hjob]
      rfl
    rw [hby]
    exact ⟨hnone fun _ => hticks.reports, (hticks.mark i).trans hmark⟩
  · have hby : s.reportsBy i inp = s.reportsNow ca i := by rw [reportsBy, hasks, Option.any_some]
    have hown : inp.isSending = false := by
      cases inp <;> first | rfl | cases hasks
    rw [hby]
    refine ⟨?_, hcycles.mark hp⟩
    rw [reportsIn, hown, hp, Option.elim_some]
    cases hlisted : s.plant.attends globalAddress i with
    | false =>
      -- no station lists the point, so none that is asked does
      have hnow : s.reportsNow ca i = false := by
        by_contra hnow
        rw [Bool.not_eq_false, reportsNow, Bool.and_eq_true, Bool.and_eq_true] at hnow
        rw [Plant.attends_global hnow.1.2] at hlisted
        cases hlisted
      rw [hnow]
      rfl
    | true =>
      rw [hcycles.reports hp hlisted, Nat.add_sub_cancel_left]
      rfl
  · have hby : s.reportsBy i inp = false := by rw [reportsBy, hasks, Option.any_none]
    rw [hby]
    exact ⟨hnone hidles.reports, (hidles.mark i rfl).trans hmark⟩

/-! ## Calls of the timer callback -/

/-- How many calls of a timer callback a step defers. -/
def callsIn (h : Handle) (s : Server) (inp : Input) : Nat :=
  (s.step inp).timerCalls h - s.timerCalls h

/-- How many calls of a timer callback the worker does in a step. -/
def callsDone (h : Handle) (s : Server) (inp : Input) : Nat :=
  (inp.job? s).toList.countP fun j => j.2 = .pointTimer h

/-- Whether a step is a sweep that finds that the timer of a point has run out. -/
def timesBy (i : PointId) (s : Server) : Input → Bool
  | .work => s.nextJob? = some (.duty .sweep) && s.timesNow i
  | _ => false

/-- A sweep finds the handle of a point exactly when it finds that the timer has run out. -/
theorem timesNow_iff (hb : s.plant.Belongs h i) : s.timesNow i = true ↔
    h ∈ s.plant.listed ∧ s.plant.hasRunOut s.now h = true := by
  rw [timesNow, Bool.and_eq_true, Plant.attends_global_iff]
  constructor
  · rintro ⟨⟨h', hmem, hi⟩, hdue⟩
    obtain rfl := hb.eq_handle hi
    exact ⟨hmem, (Plant.hasRunOut_eq hi).trans hdue⟩
  · rintro ⟨hmem, hout⟩
    obtain ⟨j, hj⟩ := Plant.exists_of_hasRunOut hout
    obtain rfl := hb.eq_id hj
    exact ⟨⟨h, hmem, hj⟩, Plant.hasRunOut_eq hj ▸ hout⟩

/-- The calls that are gone because the worker does them are those that it does. -/
theorem count_gone {gone : List (Task Job)}
    (hgone : gone.map (·.work) = ((inp.job? s).toList.filter (·.2.isTimer)).map (.once ·.2)) :
    (gone.map (·.work)).count (.once (.pointTimer h)) = s.callsDone h inp := by
  rw [hgone, callsDone, List.count_eq_countP, List.countP_map, List.countP_filter]
  refine List.countP_congr fun j _ => ?_
  simp only [Function.comp_apply, Bool.and_eq_true, beq_iff_eq, Work.once.injEq, decide_eq_true_eq,
    and_iff_left_iff_imp]
  intro hj
  rw [hj]
  rfl

/-- What a step does about the calls that defers none. -/
theorem calls_of_timings {gone : List (Task Job)}
    (htimings : s.timings = gone ++ (s.step inp).timings)
    (hgone : inp ≠ .shutDown →
      gone.map (·.work) = ((inp.job? s).toList.filter (·.2.isTimer)).map (.once ·.2)) :
    s.callsIn h inp = 0 ∧ s.callsDone h inp + (s.step inp).timerCalls h ≤ s.timerCalls h ∧
      (inp ≠ .shutDown → s.callsDone h inp + (s.step inp).timerCalls h = s.timerCalls h) := by
  have hcount : s.timerCalls h = (gone.map (·.work)).count (.once (.pointTimer h)) +
      (s.step inp).timerCalls h := by
    rw [timerCalls_eq, htimings, List.map_append, List.count_append, ← timerCalls_eq]
  have hsame (hne : inp ≠ .shutDown) :
      s.callsDone h inp + (s.step inp).timerCalls h = s.timerCalls h := by
    rw [hcount, count_gone (hgone hne)]
  refine ⟨Nat.sub_eq_zero_of_le (hcount ▸ Nat.le_add_left _ _), ?_, hsame⟩
  by_cases hdown : inp = .shutDown
  · subst hdown
    have hdone : s.callsDone h .shutDown = 0 := rfl
    rw [hdone, hcount, Nat.zero_add]
    exact Nat.le_add_left _ _
  · exact Nat.le_of_eq (hsame hdown)

/-- A call is deferred at most once in a step, and the timer is marked exactly when a call is
deferred. The calls that wait are those that were deferred and are not done, unless the server is
given up. -/
theorem Tame.calls_step (hs : s.Tame) (hlt : s.plant.points.points.size < 2 ^ 32)
    (hinp : inp.IsModest) (hmarks : ¬ inp.Marks i) (hp : s.point? i = some p)
    (hb : s.plant.Belongs h i) :
    s.callsIn h inp = (if s.timesBy i inp then 1 else 0) ∧
      (s.step inp).plant.timerAt? i =
        some (if s.timesBy i inp then clockCount s.now else p.timerAt) ∧
      s.callsDone h inp + (s.step inp).timerCalls h ≤ s.timerCalls h + s.callsIn h inp ∧
      (inp ≠ .shutDown →
        s.callsDone h inp + (s.step inp).timerCalls h = s.timerCalls h + s.callsIn h inp) := by
  have hv := hs.reachable.visited
  have hmark := timerAt?_of_point? hp
  have hsize : ∀ j ∈ ({i} : Set PointId), j < s.plant.points.points.size := by
    rintro _ rfl
    exact (Array.getElem?_eq_some_iff.mp hp).1
  have hnot (hsweep : inp = .work → s.nextJob? ≠ some (.duty .sweep)) :
      s.timesBy i inp = false := by
    cases inp with
    | work => rw [timesBy, decide_eq_false (hsweep rfl), Bool.false_and]
    | _ => rfl
  rcases time_cases {i} hv.wellFormed (hs.poised hlt).modest (hv.orderly hlt) hsize hinp
      (fun _ hj => hj ▸ hmarks) with
    ⟨rfl, hjob, hticks⟩ | ⟨ca, hasks, hcycles⟩ | ⟨-, hsweep, gone, hidles, hgone⟩
  -- a sweep takes no call from the queue
  · have hby : s.timesBy i .work = s.timesNow i := by
      rw [timesBy, decide_eq_true hjob, Bool.true_and]
    have hdone : s.callsDone h .work = 0 := by
      rw [callsDone, Input.job?, hjob]
      rfl
    have hcalls := hticks.calls h
    simp only [← timesNow_iff hb] at hcalls
    rw [hby, callsIn, hcalls, hdone, Nat.add_sub_cancel_left, Nat.zero_add]
    exact ⟨rfl, hticks.timer hp, Nat.le_refl _, fun _ => rfl⟩
  · have hjob : inp = .work → s.nextJob? = some (.duty .inventory) := by
      rintro rfl
      exact ((Option.ite_none_right_eq_some ..).mp hasks).1
    have hnone : (inp.job? s).toList.filter (·.2.isTimer) = [] := by
      by_cases hwork : inp = .work
      · rw [hwork, Input.job?, hjob hwork]
        rfl
      · rw [Input.job?_eq_none hwork]
        rfl
    have hby : s.timesBy i inp = false := by
      refine hnot fun hwork hsweep => ?_
      rw [hjob hwork] at hsweep
      cases hsweep
    have htimings : s.timings = [] ++ (s.step inp).timings := hcycles.timings.symm
    obtain ⟨hin, hle, hsame⟩ := calls_of_timings (h := h) htimings fun _ => by rw [hnone]; rfl
    rw [hby, hin]
    exact ⟨rfl, (hcycles.timer i).trans hmark, hle, hsame⟩
  · obtain ⟨hin, hle, hsame⟩ := calls_of_timings (h := h) hidles.timings hgone
    rw [hnot hsweep, hin]
    exact ⟨rfl, (hidles.timer i rfl).trans hmark, hle, hsame⟩

end Server

end Telecontrol
