import Telecontrol.Proofs.Effects
import Telecontrol.Proofs.Timeline

/-! # An executor and its worker

An executor is shared: bodies are handed to it from outside and by the body that runs, the clock
moves on meanwhile, and one worker takes a task, launches it and is busy with its body. A
**workshop** is an executor with its clock and its worker, and a **course** of it is any
interleaving of these steps, with the timeline that they write.

A stop comes in parts as well. First the executor is closed. Then the worker leaves when it looks
for the next task, and what waits is dropped, by the worker on its way out and by whoever has
called the stop: one who calls from outside waits for the worker before, a body that stops its own
executor does not, and neither does one who finds that another one waits already. So the queue may
be dropped as soon as the executor is closed, at any moment and more than once.

Main statements: `Executor.launch_eq` (what launching a task is), `Workshop.Course.accounted` (what
waits by the timeline is what the executor keeps), `Workshop.Course.attended` (what has become of
the tasks that were started) and `Workshop.Course.split` (a course may be parted at each incident of
its timeline). -/

namespace Telecontrol

variable {β : Type}

/-! ## Launching -/

namespace Executor

/-- Whether a task is over before it runs: its chain was cancelled. -/
def isOver (e : Executor β) (t : Task β) : Bool := t.work.chain?.any e.isCancelled

/-- A task is over when it belongs to a chain that was cancelled. -/
theorem isOver_iff {e : Executor β} {t : Task β} :
    e.isOver t = true ↔ ∃ chain, t.work.chain? = some chain ∧ e.isCancelled chain = true := by
  rw [isOver, Option.any_eq_true]

/-- Arm the next run of a chain whose run started at `time`. Work that runs once has no next run,
and a stopped executor arms none. -/
def rearm (e : Executor β) (time : Int) : Work β → Executor β
  | .once _ => e
  | .periodic chain interval body =>
    if e.running then e.push (.timed (time + interval)) (.periodic chain interval body) else e

/-- A running executor puts the next run of a chain into the queue. -/
theorem rearm_of_running {e : Executor β} (h : e.running = true) (time : Int) (chain : ChainId)
    (interval : Nat) (body : β) :
    e.rearm time (.periodic chain interval body) =
      e.push (.timed (time + interval)) (.periodic chain interval body) := if_pos h

/-- Launching a task that is not over arms the next run and hands out the body. -/
theorem launch_eq (e : Executor β) (now : Int) (t : Task β) :
    e.launch now t =
      if e.isOver t then (e, none) else (e.rearm now t.work, some t.work.body) := by
  obtain ⟨due, seq, work⟩ := t
  cases work with
  | once body => rfl
  | periodic chain interval body =>
    have hover : e.isOver ⟨due, seq, .periodic chain interval body⟩ = e.isCancelled chain := rfl
    rw [hover]
    cases hcancel : e.isCancelled chain <;> cases hrunning : e.running <;>
      simp [launch, rearm, Work.body, hcancel, hrunning]

/-- Arming puts nothing into the queue, or the next run of the chain. -/
theorem rearm_cases (e : Executor β) (time : Int) (work : Work β) :
    e.rearm time work = e ∨ ∃ due, e.rearm time work = e.push due work := by
  cases work with
  | once body => exact .inl rfl
  | periodic chain interval body =>
    rw [rearm]
    split
    · exact .inr ⟨_, rfl⟩
    · exact .inl rfl

/-- Only a task that is over is launched without a body. -/
theorem isOver_of_launch {e e' : Executor β} {now : Int} {t : Task β}
    (h : e.launch now t = (e', none)) : e.isOver t = true := by
  rw [launch_eq] at h
  split at h
  · assumption
  · cases h

/-- The body that is launched is that of the task. -/
theorem eq_body_of_launch {e e' : Executor β} {now : Int} {t : Task β} {body : β}
    (h : e.launch now t = (e', some body)) : e.isOver t = false ∧ body = t.work.body := by
  rw [launch_eq] at h
  split at h
  · cases h
  · rename_i hover
    exact ⟨Bool.eq_false_iff.mpr hover, (Option.some.inj (Prod.mk.inj h).2).symm⟩

/-- An executor that accepts a body puts it into the queue. -/
theorem add_eq_true {e e' : Executor β} {now delay : Int} {body : β}
    (h : e.add now delay body = (e', true)) : e' = e.push (.ofDelay delay now) (.once body) := by
  rw [add] at h
  split at h
  · exact (Prod.mk.inj h).1.symm
  · cases (Prod.mk.inj h).2

/-- An executor that refuses a body stays as it is. -/
theorem add_eq_false {e e' : Executor β} {now delay : Int} {body : β}
    (h : e.add now delay body = (e', false)) : e' = e := by
  rw [add] at h
  split at h
  · cases (Prod.mk.inj h).2
  · exact (Prod.mk.inj h).1.symm

end Executor

/-! ## Workshops -/

/-- What the **worker** of an executor is at. -/
inductive Worker (β : Type) where
  /-- It looks for a task. -/
  | idle
  /-- It has taken a task and has not launched it yet. -/
  | holding (t : Task β)
  /-- It has launched the task, and the body has not begun yet. -/
  | ready (t : Task β) (body : β)
  /-- It runs the body of the task. -/
  | busy (t : Task β)
  /-- It has left. -/
  | gone

namespace Worker

/-- The task that the worker has taken and whose body has not begun. -/
def inHand : Worker β → List (Task β)
  | .holding t | .ready t _ => [t]
  | .idle | .busy _ | .gone => []

/-- The task whose body the worker runs. -/
def running : Worker β → List (Task β)
  | .busy t => [t]
  | .idle | .holding _ | .ready .. | .gone => []

/-- The worker has one task in hand at most. -/
theorem length_inHand_le (x : Worker β) : x.inHand.length ≤ 1 := by
  cases x <;> simp [inHand]

/-- The worker has a task in hand from taking it until the body begins. -/
theorem mem_inHand_iff {x : Worker β} {t : Task β} :
    t ∈ x.inHand ↔ x = .holding t ∨ ∃ body, x = .ready t body := by
  cases x <;> simp [inHand, eq_comm]

/-- The worker runs the body of the task that it is busy with. -/
theorem mem_running_iff {x : Worker β} {t : Task β} : t ∈ x.running ↔ x = .busy t := by
  cases x <;> simp [running, eq_comm]

end Worker

/-- A **workshop**: an executor, its clock and its worker. -/
structure Workshop (β : Type) where
  executor : Executor β
  now : Int
  worker : Worker β

namespace Workshop

/-- A workshop with a new executor. -/
def opened (now : Int) : Workshop β := ⟨.start, now, .idle⟩

/-- A **step** of a workshop and what it writes on the timeline. Whoever hands over a body, from
outside or from a body that runs, has read the clock at some `time` before. -/
inductive Step : Workshop β → Timeline β → Workshop β → Prop
  /-- Time passes, also while a body runs. -/
  | pass (w : Workshop β) (ms : Nat) : Step w [] { w with now := w.now + ms }
  /-- A body is accepted. -/
  | add {w : Workshop β} {time delay : Int} {body : β} {e : Executor β} (htime : time ≤ w.now)
      (h : w.executor.add time delay body = (e, true)) :
      Step w [(w.now, .entered ⟨.ofDelay delay time, w.executor.nextSeq, .once body⟩)]
        { w with executor := e }
  /-- A body is refused. -/
  | refuse {w : Workshop β} {time delay : Int} {body : β} {e : Executor β} (htime : time ≤ w.now)
      (h : w.executor.add time delay body = (e, false)) : Step w [] { w with executor := e }
  /-- A chain begins. -/
  | begin {w : Workshop β} {time : Int} {interval : Nat} {body : β} {e : Executor β}
      {chain : ChainId} (htime : time ≤ w.now)
      (h : w.executor.addPeriodic time interval body = .ok (e, chain)) :
      Step w [(w.now, .entered
          ⟨.timed (time + interval), w.executor.nextSeq, .periodic chain interval body⟩)]
        { w with executor := e }
  /-- A chain is cancelled. -/
  | cancel (w : Workshop β) (chain : ChainId) :
      Step w [] { w with executor := w.executor.cancel chain }
  /-- The executor is closed. -/
  | halt (w : Workshop β) : Step w [(w.now, .stopped)] { w with executor := w.executor.halt }
  /-- What waits is dropped, once the executor is closed. -/
  | drain {w : Workshop β} (h : w.executor.running = false) :
      Step w [(w.now, .drained)] { w with executor := w.executor.drain }
  /-- The idle worker takes the next task. -/
  | take {w : Workshop β} {t : Task β} {e : Executor β} (hworker : w.worker = .idle)
      (h : w.executor.next? w.now = some (t, e)) :
      Step w [(w.now, .started t)] { w with executor := e, worker := .holding t }
  /-- The worker launches the task it holds, and there is nothing to run. -/
  | spare {w : Workshop β} {t : Task β} {time : Int} (hworker : w.worker = .holding t)
      (htime : time ≤ w.now) (h : w.executor.launch time t = (w.executor, none)) :
      Step w [(w.now, .spared t)] { w with worker := .idle }
  /-- The worker launches the task it holds, and no chain goes on. -/
  | launch {w : Workshop β} {t : Task β} {time : Int} {body : β}
      (hworker : w.worker = .holding t) (htime : time ≤ w.now)
      (h : w.executor.launch time t = (w.executor, some body)) :
      Step w [] { w with worker := .ready t body }
  /-- The worker launches the task it holds, and the next run of its chain enters. -/
  | rearm {w : Workshop β} {t : Task β} {time : Int} {body : β} {due : Due}
      (hworker : w.worker = .holding t) (htime : time ≤ w.now)
      (h : w.executor.launch time t = (w.executor.push due t.work, some body)) :
      Step w [(w.now, .entered ⟨due, w.executor.nextSeq, t.work⟩)]
        { w with executor := w.executor.push due t.work, worker := .ready t body }
  /-- The body begins. -/
  | run {w : Workshop β} {t : Task β} {body : β} (hworker : w.worker = .ready t body) :
      Step w [(w.now, .began t body)] { w with worker := .busy t }
  /-- The body ends, or gives up. -/
  | finish {w : Workshop β} {t : Task β} (hworker : w.worker = .busy t) :
      Step w [(w.now, .ended t)] { w with worker := .idle }
  /-- The idle worker finds the executor closed, and leaves. -/
  | leave {w : Workshop β} (hworker : w.worker = .idle) (h : w.executor.running = false) :
      Step w [(w.now, .left)] { w with worker := .gone }

/-- A **course** of a workshop: steps one after the other, with the timeline they write. -/
inductive Course (w : Workshop β) : Timeline β → Workshop β → Prop
  | refl : Course w [] w
  | step {log since : Timeline β} {u v : Workshop β} (h : Course w log u) (hstep : Step u since v) :
      Course w (since ++ log) v

variable {w u v : Workshop β} {log since newer older : Timeline β}

/-- A step is a course. -/
theorem Step.course (h : Step w log u) : Course w log u :=
  List.append_nil log ▸ Course.refl.step h

/-- One course after another is a course. -/
theorem Course.trans (h : Course w log u) (h' : Course u since v) : Course w (since ++ log) v := by
  induction h' with
  | refl => exact h
  | step _ hstep ih => exact List.append_assoc .. ▸ ih.step hstep

/-- A step writes one incident at most. -/
theorem Step.length_le (h : Step w since v) : since.length ≤ 1 := by
  cases h <;> simp

/-- A course may be parted at each incident of its timeline: there is a step that writes it. -/
theorem Course.split {x : Int × Incident β} (h : Course w log v)
    (hlog : log = newer ++ x :: older) :
    ∃ u u', Course w older u ∧ Step u [x] u' ∧ Course u' newer v := by
  induction h generalizing newer with
  | refl => cases newer <;> cases hlog
  | @step before since u v h hstep ih =>
    -- the step writes nothing, or the latest incident
    match since, hstep, hstep.length_le with
    | [], hstep, _ =>
      obtain ⟨a, a', hold, hx, hnew⟩ := ih hlog
      exact ⟨a, a', hold, hx, hnew.step hstep⟩
    | [y], hstep, _ =>
      cases newer with
      | nil =>
        obtain ⟨rfl, rfl⟩ := List.cons.inj hlog
        exact ⟨u, v, h, hstep, .refl⟩
      | cons z newer =>
        obtain ⟨rfl, hbefore⟩ := List.cons.inj hlog
        obtain ⟨a, a', hold, hx, hnew⟩ := ih hbefore
        exact ⟨a, a', hold, hx, hnew.step hstep⟩

/-! ## The books -/

/-- The **books** of a workshop: its queue holds what waits, and its numbers are new. -/
structure Accounted (log : Timeline β) (w : Workshop β) : Prop where
  mem_queue_iff : ∀ t, t ∈ w.executor.queue ↔ Timeline.Waits t log
  numbered : log.entries.Pairwise fun later earlier => earlier.seq < later.seq
  fresh : ∀ t ∈ log.entries, t.seq < w.executor.nextSeq

/-- Nothing has happened in a new workshop. -/
theorem accounted_opened (now : Int) : @Accounted β [] (opened now) where
  mem_queue_iff _ := iff_of_false List.not_mem_nil id
  numbered := .nil
  fresh _ h := absurd h List.not_mem_nil

/-- The books are kept by whatever leaves queue and numbers alone. -/
theorem Accounted.congr (h : Accounted log w) (hqueue : v.executor.queue = w.executor.queue)
    (hseq : v.executor.nextSeq = w.executor.nextSeq) : Accounted log v where
  mem_queue_iff t := hqueue ▸ h.mem_queue_iff t
  numbered := h.numbered
  fresh t ht := hseq ▸ h.fresh t ht

/-- The books are kept by what happens to the worker alone. -/
theorem Accounted.aside {time : Int} {x : Incident β} (h : Accounted log w)
    (hqueue : v.executor.queue = w.executor.queue)
    (hseq : v.executor.nextSeq = w.executor.nextSeq) (hentry : x.enter? = none)
    (hwaits : ∀ t, Timeline.Waits t ((time, x) :: log) ↔ Timeline.Waits t log) :
    Accounted ((time, x) :: log) v where
  mem_queue_iff t := hqueue ▸ (h.mem_queue_iff t).trans (hwaits t).symm
  numbered := by rw [Timeline.entries_cons_of_none hentry]; exact h.numbered
  fresh t ht := by
    rw [Timeline.entries_cons_of_none hentry] at ht
    exact hseq ▸ h.fresh t ht

/-- The books are kept when work is put into the queue. -/
theorem Accounted.push (h : Accounted log w) {due : Due} {work : Work β} {time : Int}
    (hqueue : v.executor.queue = (w.executor.push due work).queue)
    (hseq : v.executor.nextSeq = w.executor.nextSeq + 1) :
    Accounted ((time, .entered ⟨due, w.executor.nextSeq, work⟩) :: log) v where
  mem_queue_iff t := by
    rw [hqueue, Executor.mem_push, h.mem_queue_iff]
    rfl
  numbered := List.pairwise_cons.mpr ⟨h.fresh, h.numbered⟩
  fresh t ht := by
    rcases List.mem_cons.mp ht with rfl | ht
    · exact hseq ▸ Nat.lt_succ_self _
    · exact hseq ▸ Nat.lt_succ_of_lt (h.fresh t ht)

/-- Every step keeps the books. -/
theorem Accounted.step (h : Accounted log w) (hstep : Step w since v) :
    Accounted (since ++ log) v := by
  cases hstep with
  | pass ms => exact h.congr rfl rfl
  | add htime hadd =>
    obtain rfl := Executor.add_eq_true hadd
    exact h.push rfl rfl
  | refuse htime hadd =>
    obtain rfl := Executor.add_eq_false hadd
    exact h
  | begin htime hadd =>
    obtain ⟨-, rfl⟩ := Executor.addPeriodic_eq_ok hadd
    exact h.push rfl rfl
  | cancel chain => exact h.congr rfl rfl
  | drain hstopped =>
    exact ⟨fun t => iff_of_false List.not_mem_nil id, h.numbered, h.fresh⟩
  | @take t _ _ hnext =>
    obtain ⟨-, -, hqueue, hseq, -⟩ := (Executor.next?_eq_some_iff ..).mp hnext
    refine ⟨fun u => ?_, h.numbered, fun u hu => hseq ▸ h.fresh u hu⟩
    have hmem := h.mem_queue_iff u
    rw [hqueue, List.mem_cons] at hmem
    constructor
    -- the task taken comes before all that stay, so it is none of them
    · intro hu
      refine ⟨fun heq => Task.Before.irrefl t ?_, hmem.mp (.inr hu)⟩
      exact Executor.next?_least hnext (heq ▸ hu)
    · rintro ⟨hne, hw⟩
      exact (hmem.mpr hw).resolve_left hne
  | launch hworker htime hlaunch => exact h.congr rfl rfl
  | rearm hworker htime hlaunch => exact h.push rfl rfl
  | halt | spare | run | finish | leave => exact h.aside rfl rfl rfl fun t => Iff.rfl

/-- What waits by the timeline of a course is what the executor keeps. -/
theorem Course.accounted {now : Int} (h : Course (opened now) log w) : Accounted log w := by
  induction h with
  | refl => exact accounted_opened now
  | step _ hstep ih => exact ih.step hstep

/-! ## The tasks that were started -/

/-- What has become of the tasks that were **started**: the worker has one of them in hand, the
bodies of the others have begun, or they were let go. -/
structure Attended (log : Timeline β) (w : Workshop β) : Prop where
  starts : log.starts.Perm (w.worker.inHand ++ (log.begins ++ log.spares))
  /-- Bodies begin in the order in which their tasks were started. -/
  order : (w.worker.inHand ++ log.begins).Sublist log.starts
  /-- The bodies that have begun have ended, but for the one that the worker runs. -/
  begins : log.begins.Perm (w.worker.running ++ log.ends)
  /-- The body that begins is that of the task. -/
  own : ∀ {time t body}, (time, .began t body) ∈ log → body = t.work.body
  ready : ∀ {t body}, w.worker = .ready t body → body = t.work.body
  /-- A task that was let go belongs to a chain that was cancelled. -/
  spared : ∀ t ∈ log.spares, w.executor.isOver t = true

/-- Nothing was started in a new workshop. -/
theorem attended_opened (now : Int) : @Attended β [] (opened now) where
  starts := .nil
  order := .slnil
  begins := .nil
  own h := absurd h List.not_mem_nil
  ready h := by cases h
  spared _ h := absurd h List.not_mem_nil

/-- What has become of the tasks, from what the worker is at. -/
theorem Attended.of_worker (h : Attended log w) {x : Worker β} (hworker : w.worker = x) :
    log.starts.Perm (x.inHand ++ (log.begins ++ log.spares)) ∧
      (x.inHand ++ log.begins).Sublist log.starts ∧ log.begins.Perm (x.running ++ log.ends) :=
  hworker ▸ ⟨h.starts, h.order, h.begins⟩

/-- What was cancelled stays so. -/
theorem Step.isOver (hstep : Step w since v) {t : Task β} (ht : w.executor.isOver t = true) :
    v.executor.isOver t = true := by
  -- whether a task is over depends on the cancelled chains alone
  have hsame (e : Executor β) (h : e.cancelled = w.executor.cancelled) : e.isOver t = true := by
    have hcancelled : e.isCancelled = w.executor.isCancelled := by
      funext chain
      rw [Executor.isCancelled, Executor.isCancelled, h]
    rwa [Executor.isOver, hcancelled]
  cases hstep with
  | add htime hadd =>
    obtain rfl := Executor.add_eq_true hadd
    exact hsame _ rfl
  | refuse htime hadd =>
    obtain rfl := Executor.add_eq_false hadd
    exact ht
  | begin htime hadd =>
    obtain ⟨-, rfl⟩ := Executor.addPeriodic_eq_ok hadd
    exact hsame _ rfl
  | cancel chain =>
    obtain ⟨x, hx, hcancelled⟩ := Executor.isOver_iff.mp ht
    refine Executor.isOver_iff.mpr ⟨x, hx, ?_⟩
    simp only [Executor.isCancelled, List.contains_eq_mem, decide_eq_true_eq] at hcancelled ⊢
    exact List.mem_cons_of_mem _ hcancelled
  | take hworker hnext =>
    exact hsame _ ((Executor.next?_eq_some_iff ..).mp hnext).2.2.2.2.2.1
  | pass | halt | drain | spare | launch | rearm | run | finish | leave => exact hsame _ rfl

/-- Nothing becomes of the tasks that were started while the worker keeps what it has in hand. -/
theorem Attended.aside (h : Attended log w) (hinHand : v.worker.inHand = w.worker.inHand)
    (hrunning : v.worker.running = w.worker.running)
    (hready : ∀ {t body}, v.worker = .ready t body → body = t.work.body)
    (hover : ∀ t, w.executor.isOver t = true → v.executor.isOver t = true)
    (hstarts : since.starts = []) (hbegins : since.begins = []) (hends : since.ends = [])
    (hspares : since.spares = []) : Attended (since ++ log) v where
  starts := by simpa [hinHand, hstarts, hbegins, hspares] using h.starts
  order := by simpa [hinHand, hstarts, hbegins] using h.order
  begins := by simpa [hrunning, hbegins, hends] using h.begins
  own hmem := by
    rcases List.mem_append.mp hmem with hmem | hmem
    · exact absurd hbegins (List.ne_nil_of_mem (List.mem_filterMap.mpr ⟨_, hmem, rfl⟩))
    · exact h.own hmem
  ready := hready
  spared t ht := hover t (h.spared t (by simpa [hspares] using ht))

/-- Every step attends to the tasks that were started. -/
theorem Attended.step (h : Attended log w) (hstep : Step w since v) :
    Attended (since ++ log) v := by
  have hover (t : Task β) (ht : w.executor.isOver t = true) : v.executor.isOver t = true :=
    hstep.isOver ht
  -- the steps that leave the worker and the diary of the tasks alone
  cases hstep with
  | pass | add | refuse | begin | cancel | halt | drain =>
    exact h.aside rfl rfl h.ready hover rfl rfl rfl rfl
  | @take t e hworker hnext =>
    obtain ⟨hstarts, horder, hbegins⟩ := h.of_worker hworker
    exact ⟨hstarts.cons t, horder.cons_cons t, hbegins,
      fun hmem => h.own ((List.mem_cons.mp hmem).resolve_left fun heq => by cases heq),
      fun heq => (by cases heq), fun u hu => hover u (h.spared u hu)⟩
  | @spare t time hworker htime hlaunch =>
    obtain ⟨hstarts, horder, hbegins⟩ := h.of_worker hworker
    -- the task leaves the hands of the worker, and is counted as spared instead
    have hspares : (t :: (log.begins ++ log.spares)).Perm (log.begins ++ t :: log.spares) :=
      List.perm_middle.symm
    refine ⟨hstarts.trans hspares, (List.sublist_cons_self ..).trans horder, hbegins,
      fun hmem => h.own ((List.mem_cons.mp hmem).resolve_left fun heq => by cases heq),
      fun heq => (by cases heq), fun u hu => ?_⟩
    rcases List.mem_cons.mp hu with rfl | hu
    · exact hover _ (Executor.isOver_of_launch hlaunch)
    · exact hover u (h.spared u hu)
  | launch hworker htime hlaunch | rearm hworker htime hlaunch =>
    refine h.aside (by rw [hworker]; rfl) (by rw [hworker]; rfl) (fun heq => ?_) hover rfl rfl rfl
      rfl
    obtain ⟨rfl, rfl⟩ := Worker.ready.inj heq
    exact (Executor.eq_body_of_launch hlaunch).2
  | @run t body hworker =>
    obtain ⟨hstarts, horder, hbegins⟩ := h.of_worker hworker
    refine ⟨hstarts, horder, hbegins.cons t, fun hmem => ?_, fun heq => (by cases heq),
      fun u hu => hover u (h.spared u hu)⟩
    -- the body that begins is the one for which the task was launched
    rcases List.mem_cons.mp hmem with heq | hmem
    · obtain ⟨rfl, rfl⟩ := Incident.began.inj (Prod.mk.inj heq).2
      exact h.ready hworker
    · exact h.own hmem
  | @finish t hworker =>
    obtain ⟨hstarts, horder, hbegins⟩ := h.of_worker hworker
    exact ⟨hstarts, horder, hbegins,
      fun hmem => h.own ((List.mem_cons.mp hmem).resolve_left fun heq => by cases heq),
      fun heq => (by cases heq), fun u hu => hover u (h.spared u hu)⟩
  | leave hworker hstopped =>
    exact h.aside (by rw [hworker]; rfl) (by rw [hworker]; rfl) (fun heq => by cases heq) hover rfl
      rfl rfl rfl

/-- Throughout a course the tasks that were started are attended to. -/
theorem Course.attended {now : Int} (h : Course (opened now) log w) : Attended log w := by
  induction h with
  | refl => exact attended_opened now
  | step _ hstep ih => exact ih.step hstep

end Workshop

end Telecontrol
