import Telecontrol.Proofs.Workshop
import Telecontrol.Task.Session

/-! # The order in which tasks start

A task that the worker takes is the first of those that wait, whoever has handed it over and however
the clock has moved meanwhile. So the starts of a course are in order, and so are the beginnings of
the bodies: a worker begins the bodies of the tasks it has taken one after the other, but for those
it lets go.

Main statements: `Workshop.Course.starts_inOrder` (the order of the starts), and for the client's
side `Session.perform_serves` and `Session.step?_works` (a session is such a course, and a step of
its worker starts one task and begins its body). -/

namespace Telecontrol

variable {β : Type}

namespace Workshop

variable {w u v : Workshop β} {log since : Timeline β}

/-! ## Starts -/

/-- A step that starts a task starts nothing else; the task is ready and the least of those that
wait. -/
theorem Step.least (hstep : Step w since v) (h : Accounted log w) :
    since.starts = [] ∨ ∃ t, since = [(w.now, .started t)] ∧ t.due.isReady w.now = true ∧
      Timeline.Waits t log ∧ ∀ u, Timeline.Waits u log → u ≠ t → t.Before u := by
  cases hstep with
  | @take t _ _ hnext =>
    obtain ⟨-, hready, hqueue, -⟩ := (Executor.next?_eq_some_iff ..).mp hnext
    refine .inr ⟨t, rfl, hready, (h.mem_queue_iff t).mp (hqueue ▸ List.mem_cons_self ..),
      fun u hu hne => ?_⟩
    have hin := (h.mem_queue_iff u).mpr hu
    rw [hqueue] at hin
    exact Executor.next?_least hnext ((List.mem_cons.mp hin).resolve_left hne)
  | _ => exact .inl rfl

/-- Throughout a course a task that starts is ready and the least of those that wait. -/
theorem Course.least {now : Int} (h : Course (opened now) log w) {time : Int} {t : Task β}
    {older : Timeline β} (hstart : (time, .started t) :: older <:+ log) :
    t.due.isReady time = true ∧ Timeline.Waits t older ∧
      ∀ u, Timeline.Waits u older → u ≠ t → t.Before u := by
  induction h with
  | refl => cases List.suffix_nil.mp hstart
  | @step log since u v h hstep ih =>
    rcases hstep.least h.accounted with hnone | ⟨t', rfl, hready, hw, hmin⟩
    · exact ih (Timeline.suffix_of_starts_eq_nil hnone hstart)
    · rcases List.suffix_cons_iff.mp hstart with heq | hold
      · obtain ⟨hhead, rfl⟩ := List.cons.inj heq
        obtain ⟨rfl, hstarted⟩ := Prod.mk.inj hhead
        obtain rfl := Incident.started.inj hstarted
        exact ⟨hready, hw, hmin⟩
      · exact ih hold

/-- Throughout a course the starts are in order. -/
theorem Course.inOrder {now : Int} (h : Course (opened now) log w) : log.InOrder :=
  Timeline.inOrder_of_least h.accounted.numbered h.least

/-- The bodies that have begun have begun in the order of the starts. -/
theorem Course.begins_sublist {now : Int} (h : Course (opened now) log w) :
    log.begins.Sublist log.starts :=
  (List.sublist_append_right ..).trans h.attended.order

/-! ## Going on with a task -/

/-- The worker **sees to** a task that it holds: it launches it and begins its body, or it lets go
of it if its chain was cancelled. -/
def SeesTo (w : Workshop β) (t : Task β) : Prop :=
  ∃ log, Course w log
      { w with
        executor := if w.executor.isOver t then w.executor else w.executor.rearm w.now t.work
        worker := if w.executor.isOver t then .idle else .busy t } ∧
    log.starts = [] ∧ log.begins = (if w.executor.isOver t then [] else [t]) ∧
    log.spares = if w.executor.isOver t then [t] else []

/-- Whatever task the worker holds, it can see to it at once. -/
theorem seesTo {t : Task β} (hworker : w.worker = .holding t) : w.SeesTo t := by
  have hlaunch := w.executor.launch_eq w.now t
  rw [SeesTo]
  cases hover : w.executor.isOver t with
  | true =>
    rw [hover, if_pos rfl] at hlaunch
    exact ⟨_, (Step.spare hworker (Int.le_refl _) hlaunch).course, rfl, rfl, rfl⟩
  | false =>
    rw [hover, if_neg Bool.false_ne_true] at hlaunch
    simp only [Bool.false_eq_true, if_false]
    rcases w.executor.rearm_cases w.now t.work with hsame | ⟨due, hpush⟩
    · rw [hsame] at hlaunch ⊢
      have hready := (Step.launch hworker (Int.le_refl _) hlaunch).course
      exact ⟨_, hready.step (.run rfl), rfl, rfl, rfl⟩
    · rw [hpush] at hlaunch ⊢
      have hready := (Step.rearm hworker (Int.le_refl _) hlaunch).course
      exact ⟨_, hready.step (.run rfl), rfl, rfl, rfl⟩

end Workshop

/-! ## Sessions -/

namespace Session

open Workshop

/-- The workshop of a session. -/
def workshop (s : Session) (worker : Worker Body) : Workshop Body := ⟨s.executor, s.now, worker⟩

/-- The labels of the tasks whose bodies have begun, the latest first. -/
def begun (s : Session) : List String :=
  s.journal.filterMap fun x => match x.2 with
    | .began label => some label
    | _ => none

/-- One session comes from another without a start, and no body begins. -/
def Serves (worker : Worker Body) (s s' : Session) : Prop :=
  (∃ log, Course (s.workshop worker) log (s'.workshop worker) ∧ log.starts = [] ∧
    log.begins = []) ∧ s'.begun = s.begun

variable {worker : Worker Body} {s s' s'' : Session}

/-- Doing nothing starts nothing. -/
theorem Serves.refl (s : Session) : Serves worker s s := ⟨⟨[], .refl, rfl, rfl⟩, rfl⟩

/-- What starts nothing may go on with what starts nothing. -/
theorem Serves.trans (h : Serves worker s s') (h' : Serves worker s' s'') :
    Serves worker s s'' := by
  obtain ⟨⟨log, hcourse, hstarts, hbegins⟩, hbegun⟩ := h
  obtain ⟨⟨since, hcourse', hstarts', hbegins'⟩, hbegun'⟩ := h'
  exact ⟨⟨since ++ log, hcourse.trans hcourse', by simp [hstarts, hstarts'],
    by simp [hbegins, hbegins']⟩, hbegun'.trans hbegun⟩

/-- A step that starts nothing. -/
theorem serves_of_step {log : Timeline Body}
    (h : Step (s.workshop worker) log (s'.workshop worker)) (hstarts : log.starts = [])
    (hbegins : log.begins = []) (hbegun : s'.begun = s.begun) : Serves worker s s' :=
  ⟨⟨log, h.course, hstarts, hbegins⟩, hbegun⟩

/-- Entries in the journal are no business of the workshop. -/
theorem serves_note (s : Session) {e : SessionEvent} (h : ∀ label, e ≠ .began label) :
    Serves worker s (s.note e) := by
  refine ⟨⟨[], .refl, rfl, rfl⟩, ?_⟩
  cases e with
  | began label => exact absurd rfl (h label)
  | did | notice => rfl

/-- Stopping is closing the executor and dropping what waits. -/
theorem stop_serves (s : Session) : Serves worker s s.stop := by
  rw [Session.stop]
  split
  · have hhalt : Course (s.workshop worker) _ _ := (Step.halt _).course
    exact ⟨⟨_, hhalt.step (.drain rfl), rfl, rfl⟩, rfl⟩
  · exact .refl s

/-- A command is a step of the workshop that starts nothing, whoever gives it. -/
theorem perform_serves (s : Session) (c : Command) : Serves worker s (s.perform c).1 := by
  cases c with
  | add label delay commands =>
    rcases h : s.executor.add s.now delay ⟨label, commands⟩ with ⟨e, taken⟩
    simp only [perform, h]
    cases taken with
    | true => exact serves_of_step (.add (Int.le_refl _) h) rfl rfl rfl
    | false => exact serves_of_step (.refuse (Int.le_refl _) h) rfl rfl rfl
  | periodic label interval commands =>
    simp only [perform]
    cases h : s.executor.addPeriodic s.now interval ⟨label, commands⟩ with
    | error e => exact .refl s
    | ok r => exact serves_of_step (.begin (Int.le_refl _) h) rfl rfl rfl
  | cancel label =>
    simp only [perform]
    cases s.handle? label with
    | none => exact .refl s
    | some chain => exact serves_of_step (.cancel _ chain) rfl rfl rfl
  | stop => exact s.stop_serves
  | spend ms => exact serves_of_step (.pass _ ms) rfl rfl rfl
  | isCancelled | dropHandle | isRunning | pending | describe | panic => exact .refl s

/-- The commands of a body start nothing. -/
theorem run_serves (s : Session) (label : String) (commands : List Command) :
    Serves worker s (s.run label commands) := by
  fun_induction run s label commands with
  | case1 s => exact .refl s
  | case2 s message rest => exact serves_note s fun _ => by simp
  | case3 s ms rest ih => exact (perform_serves s (.spend ms)).trans ih
  | case4 s c rest _ _ u reply hperform ih =>
    have hserves : Serves worker s (s.perform c).1 := perform_serves s c
    rw [hperform] at hserves
    exact (hserves.trans (serves_note u fun _ => by simp)).trans ih

/-- What the worker does with the task that is next. -/
theorem step?_eq {t : Task Body} {e : Executor Body} (h : s.executor.next? s.now = some (t, e)) :
    ∃ u : Session, u.executor = e ∧ u.now = s.now ∧ u.begun = s.begun ∧
      s.step? = some ((e.launch s.now t).2.elim { u with executor := (e.launch s.now t).1 }
        (Session.runBody { u with executor := (e.launch s.now t).1 })) := by
  -- a late start is reported, which is no business of the workshop
  by_cases hlate : TaskNotice.latenessThreshold < t.due.lateness s.now
  · refine ⟨note { s with executor := e } (.notice (.late (t.due.lateness s.now) t.seq)),
      rfl, rfl, rfl, ?_⟩
    simp only [step?, h, if_pos hlate]
    rfl
  · refine ⟨{ s with executor := e }, rfl, rfl, rfl, ?_⟩
    simp only [step?, h, if_neg hlate]

/-- The worker of a session **works**: it takes the next task and begins its body, or lets go of it
if its chain was cancelled, and nothing else starts. -/
def Works (s s' : Session) : Prop :=
  ∃ t e log, s.executor.next? s.now = some (t, e) ∧
    Course (s.workshop .idle) log (s'.workshop .idle) ∧ log.starts = [t] ∧
    log.begins = (if s.executor.isOver t then [] else [t]) ∧
    s'.begun = (if s.executor.isOver t then [] else [t.work.body.label]) ++ s.begun

/-- What is over for an executor is over when the next task is taken. -/
theorem isOver_of_next? {e e' : Executor Body} {now : Int} {t u : Task Body}
    (h : e.next? now = some (t, e')) : e'.isOver u = e.isOver u := by
  have hcancelled : e'.isCancelled = e.isCancelled := by
    funext chain
    rw [Executor.isCancelled, Executor.isCancelled,
      ((Executor.next?_eq_some_iff ..).mp h).2.2.2.2.2.1]
  rw [Executor.isOver, Executor.isOver, hcancelled]

/-- One task of the worker: it is taken and launched, its body runs, and nothing else starts. -/
theorem step?_works (h : s.step? = some s') : s.Works s' := by
  cases hnext : s.executor.next? s.now with
  | none => rw [step?, hnext] at h; cases h
  | some r =>
    obtain ⟨t, e⟩ := r
    obtain ⟨⟨e', now, handles, journal⟩, rfl, rfl, hbegun, hstep⟩ := step?_eq hnext
    obtain rfl := Option.some.inj (h.symm.trans hstep)
    have htake := (Step.take rfl hnext : Step (s.workshop .idle) _ _).course
    -- from the task in hand the worker sees to it, and this starts no other one
    obtain ⟨log, hsees, hstarts, hbegins, -⟩ := @seesTo _ ⟨e', s.now, .holding t⟩ t rfl
    have hcourse := htake.trans hsees
    have hone : Timeline.starts (log ++ [(s.now, .started t)]) = [t] := by
      rw [Timeline.starts_append, hstarts]
      rfl
    have hbody : Timeline.begins (log ++ [(s.now, .started t)]) = log.begins := by
      rw [Timeline.begins_append]
      exact List.append_nil _
    rw [← hbody] at hbegins
    refine ⟨t, e', ?_⟩
    dsimp only at hcourse hbegins ⊢
    rw [Executor.launch_eq]
    rw [isOver_of_next? hnext] at hcourse hbegins ⊢
    cases hover : s.executor.isOver t with
    | true =>
      rw [hover] at hcourse hbegins
      exact ⟨_, hnext, hcourse, hone, hbegins, hbegun⟩
    -- the body runs its commands, and these start and begin nothing
    | false =>
      rw [hover] at hcourse hbegins
      obtain ⟨⟨since, hrun, hnone, hquiet⟩, hlabels⟩ := @run_serves (.busy t)
        (note ⟨e'.rearm s.now t.work, s.now, handles, journal⟩ (.began t.work.body.label))
        t.work.body.label t.work.body.commands
      refine ⟨_, hnext, (hcourse.trans hrun).step (.finish rfl), ?_, ?_, ?_⟩
      · rw [Timeline.starts_append, Timeline.starts_append, hnone]
        exact hone
      · rw [Timeline.begins_append, Timeline.begins_append, hquiet]
        exact hbegins
      · exact hlabels.trans (congrArg (t.work.body.label :: ·) hbegun)

/-- One session comes from another by the client's and the worker's doing. -/
def Leads (s s' : Session) : Prop := ∃ log, Course (s.workshop .idle) log (s'.workshop .idle)

/-- Doing nothing leads nowhere else. -/
theorem Leads.refl (s : Session) : Leads s s := ⟨[], .refl⟩

/-- What leads on may lead further. -/
theorem Leads.trans (h : Leads s s') (h' : Leads s' s'') : Leads s s'' := by
  obtain ⟨log, hcourse⟩ := h
  obtain ⟨since, hcourse'⟩ := h'
  exact ⟨since ++ log, hcourse.trans hcourse'⟩

/-- Letting the worker run leads on. -/
theorem settleWithin_leads (s : Session) (limit : Nat) : Leads s (s.settleWithin limit) := by
  induction limit generalizing s with
  | zero => exact .refl s
  | succ limit ih =>
    rw [settleWithin]
    cases h : s.step? with
    | none => exact .refl s
    | some s' =>
      obtain ⟨-, -, log, -, hcourse, -⟩ := step?_works h
      exact .trans ⟨log, hcourse⟩ (ih s')

/-- The clock is moved forward by letting time pass. -/
theorem moveTo_leads (s : Session) (time : Int) : Leads s (s.moveTo time) := by
  have hmax : max s.now time = s.now + ((time - s.now).toNat : Nat) := by omega
  rw [moveTo, hmax]
  exact ⟨[], Step.course (.pass _ _)⟩

/-- So does waiting for a target. -/
theorem waitWithin_leads (s : Session) (target : Int) (limit : Nat) :
    Leads s (s.waitWithin target limit) := by
  induction limit generalizing s with
  | zero => exact .refl s
  | succ limit ih =>
    rw [waitWithin]
    split
    · exact .refl s
    · split
      · exact ((moveTo_leads s _).trans (settleWithin_leads _ _)).trans (ih _)
      · exact .refl s

/-- A client that waits lets the worker take its course. -/
theorem advance_leads (s : Session) (ms : Nat) : Leads s (s.advance ms) :=
  (((settleWithin_leads s _).trans (waitWithin_leads _ _ _)).trans (moveTo_leads _ _)).trans
    (settleWithin_leads _ _)

/-- So does one that lets time pass at once. -/
theorem jump_leads (s : Session) (ms : Nat) : Leads s (s.jump ms) :=
  .trans ⟨[], Step.course (.pass _ ms)⟩ (settleWithin_leads _ _)

/-- A command leads on as well. -/
theorem perform_leads (s : Session) (c : Command) : Leads s (s.perform c).1 :=
  let ⟨⟨log, hcourse, _⟩, _⟩ := perform_serves s c
  ⟨log, hcourse⟩

/-- A session stays **on course**: whatever its client does and however it waits, the session that
comes of it is one to which its workshop leads, and its worker works. -/
structure OnCourse (s : Session) : Prop where
  works : ∀ {s' : Session}, s.step? = some s' → s.Works s'
  perform : ∀ c, Leads s (s.perform c).1
  advance : ∀ ms, Leads s (s.advance ms)
  jump : ∀ ms, Leads s (s.jump ms)

/-- Every session stays on course. -/
theorem onCourse (s : Session) : s.OnCourse :=
  ⟨step?_works, perform_leads s, advance_leads s, jump_leads s⟩

/-- In a session that began with a new executor the tasks have started in order. -/
theorem Leads.inOrder {now : Int} (h : Leads (start now) s) :
    ∃ log, Course (opened now) log (s.workshop .idle) ∧ log.InOrder :=
  let ⟨log, hcourse⟩ := h
  ⟨log, hcourse, hcourse.inOrder⟩

end Session

namespace Workshop

variable {w : Workshop β} {log : Timeline β}

/-- **Task order.** Whatever is handed over, cancelled or stopped in whatever order and however the
clock moves, the starts of a course are in order, and what waits by its timeline is what the
executor keeps in its queue. Bodies begin in the order of the starts, each of them the one of its
task, and a worker that holds a task can always see to it. A session is such a course: its worker
takes one task at a time and begins its body. -/
theorem Course.starts_inOrder {now : Int} (h : Course (opened now) log w) :
    Timeline.InOrder log ∧ (∀ t, t ∈ w.executor.queue ↔ Timeline.Waits t log) ∧
    (log.begins.Sublist log.starts ∧
      ∀ time t body, (time, .began t body) ∈ log → body = t.work.body) ∧
    (∀ t, w.worker = .holding t → w.SeesTo t ∧ w.executor.launch w.now t =
      if w.executor.isOver t then (w.executor, none)
      else (w.executor.rearm w.now t.work, some t.work.body)) ∧
    ∀ s : Session, s.OnCourse :=
  ⟨h.inOrder, h.accounted.mem_queue_iff, ⟨h.begins_sublist, fun _ _ _ => h.attended.own⟩,
    fun t hworker => ⟨seesTo hworker, w.executor.launch_eq w.now t⟩, Session.onCourse⟩

/-- A body is handed over while another one runs, and starts before one that was handed over
earlier: when the running one ends, the clock has passed both deadlines. -/
theorem late_starts_inOrder :
    ∃ (w : Workshop Nat) (log : Timeline Nat), Course (opened 0) log w ∧
      log.starts =
        [⟨.timed 100, 0, .once 0⟩, ⟨.timed 60, 2, .once 2⟩, ⟨.immediate, 1, .once 1⟩] ∧
      log.begins = [⟨.timed 60, 2, .once 2⟩, ⟨.immediate, 1, .once 1⟩] ∧
      Timeline.InOrder log ∧ (∀ t, t ∈ w.executor.queue ↔ Timeline.Waits t log) ∧
      log.begins.Sublist log.starts ∧ w.SeesTo ⟨.timed 100, 0, .once 0⟩ := by
  have first : Course (opened 0) _ _ := Course.refl
    |>.step (@Step.add _ _ 0 100 0 _ (by decide) rfl)
    |>.step (@Step.add _ _ 0 (-1) 1 _ (by decide) rfl)
    |>.step (.take rfl rfl)
    |>.step (@Step.launch _ _ _ 0 _ rfl (by decide) rfl)
    |>.step (.run rfl)
    |>.step (.pass _ 20)
    |>.step (@Step.add _ _ 10 50 2 _ (by decide) rfl)
    |>.step (.pass _ 200)
    |>.step (.finish rfl)
  have second := first
    |>.step (.take rfl rfl)
    |>.step (@Step.launch _ _ _ 220 _ rfl (by decide) rfl)
    |>.step (.run rfl)
    |>.step (.finish rfl)
    |>.step (.take rfl rfl)
  obtain ⟨hinOrder, hqueue, ⟨hbegins, -⟩, hsees, -⟩ := second.starts_inOrder
  exact ⟨_, _, second, rfl, rfl, hinOrder, hqueue, hbegins, (hsees _ rfl).1⟩

end Workshop

end Telecontrol
