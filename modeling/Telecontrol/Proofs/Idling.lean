import Telecontrol.Proofs.Lasting
import Telecontrol.Proofs.Modest
import Telecontrol.Proofs.Ordering

/-! # Steps that concern no point's time

Of all inputs only a few concern the time of a point: those with which the worker comes to a duty or
to the timer callback of a point, those that ask for cyclic reports, those with which a caller moves
the marks himself, and the one that gives the server up. Every other step **idles**: it leaves the
marks of the point, the calls that wait and the cyclic reports as they are. When the application
sends something itself, only the cyclic reports may differ.

Main statement: `Server.exists_idles`. -/

namespace Telecontrol

/-! ## Inputs -/

namespace Input

/-- An input that attaches none but modest callbacks. -/
def IsModest : Input → Prop
  | .write _ (.callback _ callback) => ∀ a ∈ callback.actions, a.IsModest
  | .setCallbacks callbacks =>
    (∀ actions, callbacks.unexpected = some actions → ∀ a ∈ actions, a.IsModest) ∧
      ∀ sent actions, callbacks.octets sent = some actions → ∀ a ∈ actions, a.IsModest
  | _ => True

/-- A caller moves a mark of a point. -/
def Marks (i : PointId) : Input → Prop
  | .write j (.reported _) | .write j (.timer _) => j = i
  | _ => False

/-- The application sends something itself. -/
def isSending : Input → Bool
  | .send .. | .sendBatch .. | .transmit .. => true
  | _ => false

/-- The address that is asked for its cyclic reports: all stations by the inventory. -/
def asks? (s : Server) : Input → Option CommonAddress
  | .work => if s.nextJob? = some (.duty .inventory) then some globalAddress else none
  | .interrogate .periodic station _ => some station
  | _ => none

end Input

namespace Server

open Act

variable {own : Bool} {gone : List (Task Job)} {kept : Set PointId} {s s' s'' : Server}

/-- A step **idles**: modest callbacks stay so, the marks of some points are kept, no call of a
timer callback joins the queue, though the first ones may be gone from it, and no cyclic report is
sent, unless the application sends something of its own. -/
structure Idles (own : Bool) (gone : List (Task Job)) (kept : Set PointId) (s s' : Server) :
    Prop where
  modest : s.Modest → s'.Modest
  mark : ∀ i ∈ kept, s'.plant.reportedAt? i = s.plant.reportedAt? i
  timer : ∀ i ∈ kept, s'.plant.timerAt? i = s.plant.timerAt? i
  timings : s.timings = gone ++ s'.timings
  reports : own = false → s'.cyclicItems = s.cyclicItems

/-- A server that bides without reports of its own idles. -/
theorem Bides.idles (h : s.Bides false s') : s.Idles own [] kept s' :=
  ⟨h.modest, fun i _ => h.mark rfl i, fun i _ => h.timer i, h.timings.symm, fun _ => h.reports rfl⟩

/-- Stopping hands over nothing. -/
theorem stop_fields (s : Server) :
    s.stop.plant = s.plant ∧ s.stop.callbacks = s.callbacks ∧ s.stop.handed = s.handed := by
  cases hrun : s.running with
  | false =>
    rw [stop_of_not_running hrun]
    exact ⟨rfl, rfl, rfl⟩
  | true =>
    rw [stop_eq hrun]
    refine ⟨rfl, rfl, ?_⟩
    simp [handed, Event.sent?]

namespace Idles

/-- Doing nothing is idling. -/
theorem refl (s : Server) : s.Idles own [] kept s := (Bides.refl s).idles

/-- Idling may go on. -/
theorem trans (h : s.Idles own gone kept s') (h' : s'.Idles own [] kept s'') :
    s.Idles own gone kept s'' where
  modest hs := h'.modest (h.modest hs)
  mark i hi := (h'.mark i hi).trans (h.mark i hi)
  timer i hi := (h'.timer i hi).trans (h.timer i hi)
  timings := h.timings.trans (congrArg (gone ++ ·) h'.timings)
  reports hown := (h'.reports hown).trans (h.reports hown)

/-- What only sends moves no mark. -/
theorem sending (h : s.Sends s') : s.Idles true [] kept s' := by
  obtain ⟨_, _, rfl⟩ := h
  exact ⟨fun hs => ⟨hs.points, hs.unexpected, hs.octets⟩, fun _ _ => rfl, fun _ _ => rfl, rfl,
    nofun⟩

/-- A step that changes neither the plant nor the callbacks and hands over nothing. -/
theorem of_plant_eq (hplant : s'.plant = s.plant) (hcallbacks : s'.callbacks = s.callbacks)
    (htimings : s.timings = gone ++ s'.timings) (hhanded : s'.handed = s.handed) :
    s.Idles own gone kept s' where
  modest hs := hs.of_callbacks hcallbacks fun j => by rw [point?, hplant]; rfl
  mark _ _ := by rw [hplant]
  timer _ _ := by rw [hplant]
  timings := htimings
  reports _ := by rw [cyclicItems, hhanded, cyclicItems]

/-- The points that were there stay as they are when the plant changes. -/
theorem plant {q : Plant} (hkept : ∀ i ∈ kept, i < s.plant.points.points.size)
    (hc : s.plant.Change s.now q) : s.Idles own [] kept { s with plant := q } := by
  have hpoints : (∀ j p, q.points.point? j = some p → s.point? j = some p ∨ p.callbacks = {}) ∧
      ∀ i < s.plant.points.points.size, q.points.point? i = s.point? i := by
    rcases hc.cases with hshrink | ⟨ca, id, ha⟩ | ⟨id, spec, h, ha⟩
    · have heq (j : PointId) : q.points.point? j = s.point? j := by
        rw [PointStore.point?, hshrink.points]
        rfl
      exact ⟨fun j p hp => .inl (heq j ▸ hp), fun i _ => heq i⟩
    · obtain ⟨-, -, -, rfl⟩ := (Plant.addStation_eq_ok_iff ..).mp ha
      exact ⟨fun j p hp => .inl hp, fun _ _ => rfl⟩
    · -- a point that is made comes last, and without callbacks
      obtain rfl := Plant.eq_enlist ha
      refine ⟨fun j p hp => ?_, fun i hi =>
        (Array.getElem?_push_lt hi).trans (Array.getElem?_eq_getElem hi).symm⟩
      have hp : (s.plant.points.points.push _)[j]? = some p := hp
      rw [Array.getElem?_push] at hp
      split at hp
      · obtain rfl := Option.some.inj hp
        exact .inr rfl
      · exact .inl hp
  obtain ⟨hnew, hold⟩ := hpoints
  refine ⟨fun hs => ⟨fun {j p kind callback} hp hcallback => ?_, hs.unexpected, hs.octets⟩,
    fun i hi => ?_, fun i hi => ?_, rfl, fun _ => rfl⟩
  · -- callbacks are those of before, or there are none
    rcases hnew j p hp with hp | hnone
    · exact hs.points hp hcallback
    · rw [hnone] at hcallback
      cases kind <;> cases hcallback
  · rw [Plant.reportedAt?, hold i (hkept i hi)]
    rfl
  · rw [Plant.timerAt?, hold i (hkept i hi)]
    rfl

/-- Writing to a point: no mark is moved that is to stay, and callbacks that are attached are
modest. -/
theorem modifyPoint (s : Server) (id : PointId) {f : Point → Point}
    (hmark : id ∈ kept → ∀ p : Point, (f p).reportedAt = p.reportedAt)
    (htimer : id ∈ kept → ∀ p : Point, (f p).timerAt = p.timerAt)
    (hcall : ∀ (p : Point) {kind callback}, (f p).callbacks.get? kind = some callback →
      p.callbacks.get? kind = some callback ∨ ∀ a ∈ callback.actions, a.IsModest) :
    s.Idles own [] kept (s.modifyPoint id f) := by
  have hpoint (j : PointId) : (s.modifyPoint id f).point? j =
      if id = j then (s.point? j).map f else s.point? j := PointStore.point?_modify ..
  have hmap {g : Point → UInt64} (hg : id ∈ kept → ∀ p, g (f p) = g p) (i : PointId)
      (hi : i ∈ kept) : ((s.modifyPoint id f).point? i).map g = (s.point? i).map g := by
    rw [hpoint]
    split
    · rename_i hid
      rw [Option.map_map]
      exact Option.map_congr fun p _ => hg (hid ▸ hi) p
    · rfl
  refine ⟨fun hs => ⟨fun {j p kind callback} hp hcallback => ?_, hs.unexpected, hs.octets⟩,
    hmap hmark, hmap htimer, rfl, fun _ => rfl⟩
  rw [hpoint] at hp
  split at hp
  · -- the point that is written: its callbacks are old ones or modest
    obtain ⟨q, hq, rfl⟩ := Option.map_eq_some_iff.mp hp
    exact (hcall q hcallback).elim (hs.points hq) fun hmodest => hmodest
  · exact hs.points hp hcallback

/-- A caller writes to a point, but does not move the marks that are to stay. -/
theorem writePoint (s : Server) (id : PointId) {w : PointWrite}
    (hmodest : (Input.write id w).IsModest) (hmarks : ∀ i ∈ kept, ¬ (Input.write id w).Marks i) :
    s.Idles own [] kept (s.writePoint id w) := by
  cases w with
  | value | quality | reportInterval =>
    exact .modifyPoint s id (fun _ _ => rfl) (fun _ _ => rfl) fun _ => .inl
  | reported =>
    exact .modifyPoint s id (fun hid => absurd rfl (hmarks id hid)) (fun _ _ => rfl) fun _ => .inl
  | timer =>
    exact .modifyPoint s id (fun _ _ => rfl) (fun hid => absurd rfl (hmarks id hid)) fun _ => .inl
  | callback kind callback =>
    refine .modifyPoint s id (fun _ _ => rfl) (fun _ _ => rfl) fun p {kind' _} hcallback => ?_
    cases kind <;> cases kind' <;>
      first | exact .inl hcallback | exact .inr (Option.some.inj hcallback ▸ hmodest)

/-- An operation that may fail. -/
theorem orSame {s : Server} {e : Except ServerError Server}
    (h : ∀ u, e = .ok u → s.Idles own [] kept u) : s.Idles own [] kept (s.orSame e) := by
  cases e with
  | ok u => exact h u rfl
  | error _ => exact refl s

/-- Starting is idling. -/
theorem start (h : s.start = .ok s') : s.Idles own [] kept s' := by
  rcases start_cases h with rfl | ⟨e₁, e₂, c₁, c₂, h₁, h₂, rfl⟩
  · exact .refl _
  · refine of_plant_eq rfl rfl ?_ rfl
    show s.timings = e₂.queue.filter _
    rw [(Executor.queue_addPeriodic h₂).2, Task.filter_place rfl, (Executor.queue_addPeriodic h₁).2,
      Task.filter_place rfl]
    rfl

/-- Stopping is idling. -/
theorem stop (s : Server) : s.Idles own [] kept s.stop := by
  obtain ⟨hplant, hcallbacks, hhanded⟩ := s.stop_fields
  refine of_plant_eq hplant hcallbacks ?_ hhanded
  rw [Server.timings, Server.timings, queue_stop]
  rfl

/-- The events of connections are idling. -/
theorem onConnectionEvent (s : Server) (c : ConnectionId) (e : ConnectionEvent) :
    s.Idles own [] kept (s.onConnectionEvent c e) := by
  have htimings : s.timings = (s.onConnectionEvent c e).timings := by
    rw [Server.timings, Server.timings, executor_onConnectionEvent]
  refine of_plant_eq ?_ ?_ htimings (Mute.onConnectionEvent s c e).handed
  · rw [onConnectionEvent_eq]
  · rw [onConnectionEvent_eq]

end Idles

/-! ## The worker -/

/-- The task of a job that is no duty runs once. -/
theorem work_of_nextJob? (hs : s.WellFormed) {task : Task Job} {e : Executor Job} {job : Job}
    (hnext : s.executor.next? s.now = some (task, e)) (hjob : s.nextJob? = some job)
    (hduty : ∀ d, job ≠ .duty d) : task.work = .once job := by
  obtain ⟨-, -, hqueue, -⟩ := (Executor.next?_eq_some_iff ..).mp hnext
  have hroutine := hs.routine task (hqueue ▸ List.mem_cons_self)
  have hbody := Executor.body_of_launch ((work?_eq hnext).1.symm.trans hjob)
  cases hwork : task.work with
  | once body =>
    rw [hwork] at hbody
    exact congrArg Work.once hbody
  | periodic chain interval body =>
    rw [hwork] at hbody hroutine
    obtain ⟨d, hd⟩ := hroutine
    exact absurd (hbody.symm.trans hd) (hduty d)

/-- Taking a task idles; it is gone, and if it was the next run of a duty, another one comes. -/
theorem idles_taking (hs : s.WellFormed) {task : Task Job} {e : Executor Job}
    (hnext : s.executor.next? s.now = some (task, e)) :
    s.Idles own ([task].filter fun t => t.work.body.isTimer) kept (s.taking task e) := by
  obtain ⟨-, -, hqueue, -⟩ := (Executor.next?_eq_some_iff ..).mp hnext
  have hrest : (s.taking task e).timings = e.queue.filter fun t => t.work.body.isTimer := by
    show (e.launch s.now task).1.queue.filter _ = _
    cases hwork : task.work with
    -- of the work that is put back, only duties occur, and no duty is the call of a timer
    | once body => rw [Executor.launch_once e s.now hwork]
    | periodic chain interval body =>
      obtain ⟨d, rfl⟩ : ∃ d, body = .duty d := by
        have hroutine := hs.routine task (hqueue ▸ List.mem_cons_self)
        rwa [hwork] at hroutine
      rw [Executor.launch, hwork]
      dsimp only
      split
      · rfl
      · split
        · exact Task.filter_place rfl _
        · rfl
  refine .of_plant_eq (s.noteLateness_fields task).2.1 ?_ ?_ (s.mute_taking task e).handed
  · rw [taking, noteLateness_eq]
    split <;> rfl
  · rw [hrest, ← List.filter_append, timings, hqueue]
    rfl

/-- The call that is gone when a task is taken is the job that the worker does. -/
theorem gone_taking (hs : s.WellFormed) {task : Task Job} {e : Executor Job}
    (hnext : s.executor.next? s.now = some (task, e)) :
    ([task].filter fun t => t.work.body.isTimer).map (·.work) =
      (s.nextJob?.toList.filter (·.isTimer)).map .once := by
  obtain ⟨-, -, hqueue, -⟩ := (Executor.next?_eq_some_iff ..).mp hnext
  have hroutine := hs.routine task (hqueue ▸ List.mem_cons_self)
  have hjob := (work?_eq hnext).1
  cases hwork : task.work with
  | once job =>
    rw [hjob, Executor.launch_once e s.now hwork]
    cases htimer : job.isTimer <;> simp [hwork, Work.body, htimer]
  | periodic chain interval body =>
    -- only duties are periodic, and no duty is a call
    rw [hwork] at hroutine
    obtain ⟨d, rfl⟩ := hroutine
    have hnone (job : Job) (hmem : job ∈ s.nextJob?.toList) : ¬ job.isTimer = true := by
      have hbody := Executor.body_of_launch (hjob.symm.trans (Option.mem_toList.mp hmem))
      rw [hwork] at hbody
      obtain rfl : Job.duty d = job := hbody
      exact Bool.false_ne_true
    rw [List.filter_eq_nil_iff.mpr hnone, List.filter_cons_of_neg (by rw [hwork]; exact nofun)]
    rfl

/-- Taking a task touches nothing but the executor and the journal. -/
theorem exists_taking_eq (s : Server) (task : Task Job) (e : Executor Job) :
    ∃ journal, s.taking task e = { s with executor := (e.launch s.now task).1, journal } := by
  rw [taking, noteLateness_eq]
  split <;> exact ⟨_, rfl⟩

/-- When the worker comes to a duty, taking the task bides the time. -/
theorem exists_step_duty (hs : s.WellFormed) {d : Duty} (hjob : s.nextJob? = some (.duty d)) :
    ∃ executor journal,
      s.step .work = { s with executor, journal }.guard (doJob onFrame (.duty d)) ∧
      s.Bides false { s with executor, journal } ∧ executor.running = true := by
  obtain ⟨task, e, hnext, -⟩ := next?_of_nextJob? hjob
  have hidles : s.Idles false _ ∅ (s.taking task e) := idles_taking hs hnext
  have hgone := gone_taking hs hnext
  rw [hjob] at hgone
  have htimings := hidles.timings
  rw [List.map_eq_nil_iff.mp hgone, List.nil_append] at htimings
  have hhanded := (s.mute_taking task e).handed
  have hstep : s.step .work = (s.taking task e).guard (doJob onFrame (.duty d)) := by
    show s.work?.getD s = _
    rw [(work?_eq hnext).2, hjob]
    rfl
  obtain ⟨journal, htaking⟩ := s.exists_taking_eq task e
  rw [htaking] at htimings hhanded hstep
  refine ⟨_, journal, hstep, .of_handed [] rfl rfl rfl htimings.symm hhanded
    (fun _ _ hf => nomatch hf), ?_⟩
  obtain ⟨hrun, -, -, -, -, -, he⟩ := (Executor.next?_eq_some_iff ..).mp hnext
  exact (Executor.running_launch ..).trans (he.trans hrun)

/-- The worker idles unless it comes to a duty; the call that it has come to is gone. -/
theorem idles_work (hs : s.WellFormed) (hmodest : s.Modest)
    (hduty : ∀ d, s.nextJob? ≠ some (.duty d)) :
    ∃ gone, s.Idles own gone kept (s.step .work) ∧
      gone.map (·.work) = (s.nextJob?.toList.filter (·.isTimer)).map .once := by
  show ∃ gone, s.Idles own gone kept (s.work?.getD s) ∧ _
  cases hnext : s.executor.next? s.now with
  | none =>
    rw [work?, hnext, nextJob?, hnext]
    exact ⟨[], .refl s, rfl⟩
  | some found =>
    obtain ⟨task, e⟩ := found
    have htaking : s.Idles own _ kept (s.taking task e) := idles_taking hs hnext
    refine ⟨_, ?_, gone_taking hs hnext⟩
    rw [(work?_eq hnext).2]
    cases hjob : s.nextJob? with
    | none => exact htaking
    | some job =>
      have hdo : (doJob onFrame job).Bides false (s.taking task e) :=
        bides_doJob fun d hd => hduty d (hjob.trans (congrArg some hd))
      exact htaking.trans (hdo.guard (htaking.modest hmodest)).idles

/-- Giving the server up idles; no call waits any longer if any did. -/
theorem idles_shutDown (hkept : ∀ i ∈ kept, i < s.plant.points.points.size) :
    ∃ gone, s.Idles own gone kept (s.step .shutDown) := by
  obtain ⟨hplant, hcallbacks, hhanded⟩ := s.stop_fields
  have hstopped : ∃ gone, s.Idles own gone kept s.stop.stopExecutor := by
    rw [stopExecutor]
    split
    · exact ⟨s.timings, .of_plant_eq hplant hcallbacks (List.append_nil _).symm hhanded⟩
    · exact ⟨_, .stop s⟩
  obtain ⟨gone, hgone⟩ := hstopped
  have hsize : s.stop.stopExecutor.plant = s.plant := by
    rw [stopExecutor]
    split <;> exact hplant
  exact ⟨gone, hgone.trans (.plant (hsize ▸ hkept) (.dissolve _))⟩

/-- A step idles that neither takes a task nor asks for cyclic reports nor gives the server up,
unless a caller moves the marks of the point. -/
theorem idles_step {inp : Input} (hs : s.Modest)
    (hkept : ∀ i ∈ kept, i < s.plant.points.points.size) (hmodest : inp.IsModest)
    (hmarks : ∀ i ∈ kept, ¬ inp.Marks i) (hwork : inp ≠ .work) (hdown : inp ≠ .shutDown)
    (hasks : inp.asks? s = none) :
    s.Idles inp.isSending [] kept (s.step inp) := by
  cases inp with
  -- the two inputs that were excluded, then those in the order of the definition
  | work => exact absurd rfl hwork
  | shutDown => exact absurd rfl hdown
  | pass => exact .of_plant_eq rfl rfl rfl rfl
  | start => exact .orSame fun u hu => .start hu
  | stop => exact .stop s
  | request peer =>
    rcases s.step_request_cases peer with h | h | h
    · exact h.symm ▸ .refl s
    · exact h ▸ (Bides.report s _).idles
    · exact h ▸ (Bides.note s rfl).idles
  | connection c e => exact .onConnectionEvent s c e
  | frame c f => exact ((bides_receive c f).outside hs).idles
  | octets c data sent =>
    rcases s.step_octets_cases c data sent with h | h
    · exact h.symm ▸ .refl s
    · exact h ▸ (Bides.defer s _ rfl).idles
  | addStation station =>
    rcases s.step_addStation_cases station with h | ⟨q, id, ha, h⟩
    · exact h.symm ▸ .refl s
    · exact h ▸ Idles.trans (.plant hkept (.addStation ha)) (Bides.report _ _).idles
  | removeStation station =>
    rcases s.step_removeStation_cases station with h | ⟨q, hr, h⟩
    · exact h.symm ▸ .refl s
    · exact h ▸ Idles.trans (.plant hkept (.removeStation hr)) (Bides.report _ _).idles
  | keepStation id => exact .plant hkept (.keep _ id)
  | releaseStation id => exact .plant hkept (.release _ id)
  | addPoint id spec =>
    rcases s.step_addPoint_cases id spec with h | ⟨q, _, ha, h⟩
    · exact h.symm ▸ .refl s
    · exact h ▸ .plant hkept (.addPoint ha)
  | removePoint id address => exact .plant hkept (.removePoint _ id address)
  | vacate h => exact .plant hkept (.vacate _ h)
  | write id w => exact .writePoint s id hmodest hmarks
  | setCallbacks callbacks =>
    exact ⟨fun hs => ⟨hs.points, hmodest.1 _, hmodest.2 _ _⟩, fun _ _ => rfl, fun _ _ => rfl, rfl,
      fun _ => rfl⟩
  | send f receiver =>
    refine .sending ?_
    show s.Sends (s.send f receiver).1
    rw [send]
    split
    · exact .deliver s _ receiver
    · exact .refl s
  | sendBatch b receiver => exact .sending (.sendBatches s receiver [b])
  | transmit id cause => exact .sending (.transmitPoint s id cause none)
  | interrogate cause station receiver =>
    have hcause : cause ≠ .periodic := by
      rintro rfl
      cases hasks
    exact ((bides_bind (bides_interrogate (fun _ => hcause) station) fun _ _ _ =>
      bides_pure _).outside hs).idles

/-- Every step idles but those with which the worker sweeps, cyclic reports are asked for or a
caller moves the marks of the point. Unless the server is given up, the call that is gone is the job
that the worker does. -/
theorem exists_idles {inp : Input} (hs : s.WellFormed) (hmodest : s.Modest)
    (hkept : ∀ i ∈ kept, i < s.plant.points.points.size) (hinp : inp.IsModest)
    (hmarks : ∀ i ∈ kept, ¬ inp.Marks i)
    (hsweep : inp = .work → s.nextJob? ≠ some (.duty .sweep)) (hasks : inp.asks? s = none) :
    ∃ gone, s.Idles inp.isSending gone kept (s.step inp) ∧ (inp ≠ .shutDown →
      gone.map (·.work) = ((inp.job? s).toList.filter (·.2.isTimer)).map (.once ·.2)) := by
  by_cases hwork : inp = .work
  · subst hwork
    -- the worker does not sweep, and the inventory would have asked for reports
    have hduty (d : Duty) : s.nextJob? ≠ some (.duty d) := by
      cases d with
      | sweep => exact hsweep rfl
      | inventory =>
        intro hjob
        rw [Input.asks?, if_pos hjob] at hasks
        cases hasks
    obtain ⟨gone, hidles, hgone⟩ := idles_work hs hmodest hduty
    refine ⟨gone, hidles, fun _ => hgone.trans ?_⟩
    rw [Input.job?]
    cases s.nextJob? with
    | none => rfl
    | some job => cases htimer : job.isTimer <;> simp [htimer]
  · by_cases hdown : inp = .shutDown
    · subst hdown
      obtain ⟨gone, hidles⟩ := idles_shutDown hkept
      exact ⟨gone, hidles, fun hne => absurd rfl hne⟩
    · refine ⟨[], idles_step hmodest hkept hinp hmarks hwork hdown hasks, fun _ => ?_⟩
      rw [Input.job?_eq_none hwork]
      rfl

end Server

end Telecontrol
