import Telecontrol.Proofs.Schedule

/-! # Every task runs once

A task that was accepted waits, was started, or was discarded when the executor stopped; it is never
in two of these stages, and it is started once. The body of a task that was started begins once,
unless the chain of the task was cancelled. All of this is read off the timeline, where whoever
hands over a task, from outside or from a body that runs, and whatever becomes of the body, leaves
the same marks.

Main statements: `Timeline.parted_of_waits` (the stages of a task), `Workshop.Course.conserved` and
`Workshop.Course.carried` (what becomes of a task that was started). -/

namespace Telecontrol

variable {β : Type}

/-! ## The stages of a task -/

namespace Timeline

variable {log older since : Timeline β} {t u : Task β} {time : Int}

/-- A task was **discarded** if it waited when the queue was dropped. -/
def Discarded (t : Task β) : Timeline β → Prop
  | [] => False
  | (_, .drained) :: log => Waits t log ∨ Discarded t log
  | (_, .entered _) :: log | (_, .started _) :: log | (_, .began ..) :: log | (_, .ended _) :: log
  | (_, .spared _) :: log | (_, .stopped) :: log | (_, .left) :: log => Discarded t log

/-- A timeline is **parted** when its tasks are in one stage each. -/
structure Parted (log : Timeline β) : Prop where
  stage : ∀ {t}, t ∈ log.entries → Waits t log ∨ t ∈ log.starts ∨ Discarded t log
  once : log.starts.Nodup
  entered : ∀ {t}, t ∈ log.starts ∨ Discarded t log → t ∈ log.entries
  waiting : ∀ {t}, Waits t log → t ∉ log.starts ∧ ¬ Discarded t log
  started : ∀ {t}, t ∈ log.starts → ¬ Discarded t log

/-- Nothing has happened yet. -/
theorem parted_nil : Parted ([] : Timeline β) where
  stage h := absurd h List.not_mem_nil
  once := .nil
  entered h := h.elim (fun h => absurd h List.not_mem_nil) fun h => h.elim
  waiting h := h.elim
  started h := absurd h List.not_mem_nil

/-- A new task begins to wait. -/
theorem Parted.entered_cons (h : log.Parted) (hnew : t ∉ log.entries) :
    Parted ((time, .entered t) :: log) where
  stage {u} hu := by
    rcases List.mem_cons.mp hu with rfl | hu
    · exact .inl (.inl rfl)
    · exact (h.stage hu).imp_left .inr
  once := h.once
  entered hu := List.mem_cons_of_mem _ (h.entered hu)
  waiting {u} hu := by
    rcases hu with rfl | hu
    · exact ⟨fun hs => hnew (h.entered (.inl hs)), fun hd => hnew (h.entered (.inr hd))⟩
    · exact h.waiting hu
  started hu := h.started hu

/-- A task that waits is started. -/
theorem Parted.started_cons (h : log.Parted) (hwaits : Waits t log) :
    Parted ((time, .started t) :: log) where
  stage {u} hu := by
    rcases h.stage hu with hw | hs | hd
    · -- the task itself changes its stage, all others stay at theirs
      by_cases hut : u = t
      · exact .inr (.inl (hut ▸ List.mem_cons_self))
      · exact .inl ⟨hut, hw⟩
    · exact .inr (.inl (List.mem_cons_of_mem _ hs))
    · exact .inr (.inr hd)
  once := List.nodup_cons.mpr ⟨(h.waiting hwaits).1, h.once⟩
  entered {u} hu := by
    rcases hu with hs | hd
    · rcases List.mem_cons.mp hs with rfl | hs
      · exact (mem_entries_of_waits hwaits : u ∈ entries log)
      · exact h.entered (.inl hs)
    · exact h.entered (.inr hd)
  waiting {u} hu := by
    refine ⟨fun hs => ?_, (h.waiting hu.2).2⟩
    rcases List.mem_cons.mp hs with heq | hs
    · exact hu.1 heq
    · exact (h.waiting hu.2).1 hs
  started {u} hu := by
    rcases List.mem_cons.mp hu with rfl | hs
    · exact (h.waiting hwaits).2
    · exact h.started hs

/-- Dropping the queue discards all that wait. -/
theorem Parted.drained_cons (h : log.Parted) : Parted ((time, .drained) :: log) where
  stage {u} hu := by
    rcases h.stage hu with hw | hs | hd
    · exact .inr (.inr (.inl hw))
    · exact .inr (.inl hs)
    · exact .inr (.inr (.inr hd))
  once := h.once
  entered {u} hu := by
    rcases hu with hs | hw | hd
    · exact h.entered (.inl hs)
    · exact (mem_entries_of_waits hw : u ∈ entries log)
    · exact h.entered (.inr hd)
  waiting hu := hu.elim
  started {u} hu hd := by
    rcases hd with hw | hd
    · exact (h.waiting hw).1 hu
    · exact h.started hu hd

/-- A timeline is parted if no task enters twice and none starts that does not wait. -/
theorem parted_of_waits (hnum : log.entries.Pairwise fun later earlier => earlier.seq < later.seq)
    (hwaits : ∀ {time t older}, (time, .started t) :: older <:+ log → Waits t older) :
    Parted log := by
  induction log with
  | nil => exact parted_nil
  | cons x log ih =>
    obtain ⟨time, incident⟩ := x
    have hbefore : Parted log := by
      exact ih (hnum.sublist (entries_sublist (List.suffix_cons ..))) fun h =>
        hwaits (h.trans (List.suffix_cons ..))
    cases incident with
    | entered t =>
      refine hbefore.entered_cons fun hmem => ?_
      exact Nat.lt_irrefl _ ((List.pairwise_cons.mp hnum).1 t hmem)
    | started t => exact hbefore.started_cons (hwaits (List.suffix_refl _))
    | drained => exact hbefore.drained_cons
    | began | ended | spared | stopped | left =>
      exact ⟨hbefore.stage, hbefore.once, hbefore.entered, hbefore.waiting, hbefore.started⟩

end Timeline

namespace Workshop

open Timeline

variable {w u v : Workshop β} {log since : Timeline β} {now : Int}

/-- Throughout a course tasks are in one stage each. -/
theorem Course.parted (h : Course (opened now) log w) : log.Parted :=
  parted_of_waits h.accounted.numbered fun hstart => (h.least hstart).2.1

/-! ## Conservation -/

/-- The **stage** of a task that was accepted. -/
inductive Stage where
  | queued
  | started
  | discarded
  deriving DecidableEq, Repr

/-- Whether a task is at a stage. -/
def IsAt (w : Workshop β) (log : Timeline β) (t : Task β) : Stage → Prop
  | .queued => t ∈ w.executor.queue
  | .started => t ∈ log.starts
  | .discarded => Discarded t log

/-- Tasks are **conserved**. -/
structure Conserved (log : Timeline β) (w : Workshop β) : Prop where
  /-- No task is accepted twice. -/
  accepted : log.entries.Nodup
  /-- No task is started twice. -/
  once : log.starts.Nodup
  /-- A task that was accepted is at exactly one stage, and no other task is at any. -/
  stage : ∀ t, t ∈ log.entries ↔ ∃! stage, w.IsAt log t stage
  /-- The number of tasks that wait is the number of those that were neither started nor discarded.
  -/
  pending : ∃ waiting : List (Task β), waiting.Nodup ∧
    (∀ t, t ∈ waiting ↔ t ∈ log.entries ∧ t ∉ log.starts ∧ ¬ Discarded t log) ∧
    w.executor.pending = waiting.length

/-- An order by number leaves no task twice. -/
theorem Accounted.nodup (h : Accounted log w) : log.entries.Nodup :=
  List.Pairwise.imp (S := (· ≠ ·)) (fun hlt heq => Nat.lt_irrefl _ (heq ▸ hlt)) h.numbered

/-- A queue in order holds no task twice. -/
theorem nodup_queue (e : Executor β) : e.queue.Nodup :=
  List.Pairwise.imp (S := (· ≠ ·)) (fun hlt heq => Task.Before.irrefl _ (heq ▸ hlt)) e.ordered

/-- Every task that was accepted is at one stage. -/
theorem Course.stage (h : Course (opened now) log w) (t : Task β) :
    t ∈ log.entries ↔ ∃! stage, w.IsAt log t stage := by
  have hparted := h.parted
  have hqueue := h.accounted.mem_queue_iff t
  constructor
  · -- the queue holds what waits, and no task is at two of the stages
    intro ht
    rcases hparted.stage ht with hw | hs | hd
    · refine ⟨.queued, hqueue.mpr hw, fun stage hstage => ?_⟩
      cases stage with
      | queued => rfl
      | started => exact absurd hstage (hparted.waiting hw).1
      | discarded => exact absurd hstage (hparted.waiting hw).2
    · refine ⟨.started, hs, fun stage hstage => ?_⟩
      cases stage with
      | queued => exact absurd hs (hparted.waiting (hqueue.mp hstage)).1
      | started => rfl
      | discarded => exact absurd hstage (hparted.started hs)
    · refine ⟨.discarded, hd, fun stage hstage => ?_⟩
      cases stage with
      | queued => exact absurd hd (hparted.waiting (hqueue.mp hstage)).2
      | started => exact absurd hd (hparted.started hstage)
      | discarded => rfl
  · rintro ⟨stage, hstage, -⟩
    cases stage with
    | queued => exact mem_entries_of_waits (hqueue.mp hstage)
    | started => exact hparted.entered (.inl hstage)
    | discarded => exact hparted.entered (.inr hstage)

/-- The tasks in the queue are those that were neither started nor discarded. -/
theorem Course.mem_queue_iff (h : Course (opened now) log w) (t : Task β) :
    t ∈ w.executor.queue ↔ t ∈ log.entries ∧ t ∉ log.starts ∧ ¬ Discarded t log := by
  rw [h.accounted.mem_queue_iff]
  constructor
  · intro hw
    exact ⟨mem_entries_of_waits hw, h.parted.waiting hw⟩
  · rintro ⟨ht, hs, hd⟩
    rcases h.parted.stage ht with hw | hs' | hd'
    · exact hw
    · exact absurd hs' hs
    · exact absurd hd' hd

/-- Whatever is handed over, cancelled or stopped in whatever order, tasks are conserved. -/
theorem Course.conserved (h : Course (opened now) log w) : Conserved log w where
  accepted := h.accounted.nodup
  once := h.parted.once
  stage := h.stage
  pending := ⟨w.executor.queue, nodup_queue _, h.mem_queue_iff, rfl⟩

/-! ## The fate of a task that was started -/

/-- The **fate** of a task that was started. -/
inductive Fate where
  /-- The worker has it in hand, and its body has not begun. -/
  | inHand
  /-- Its body has begun. -/
  | begun
  /-- It was let go. -/
  | spared
  deriving DecidableEq, Repr

/-- Whether a task has met a fate. -/
def HasMet (w : Workshop β) (log : Timeline β) (t : Task β) : Fate → Prop
  | .inHand => w.worker = .holding t ∨ ∃ body, w.worker = .ready t body
  | .begun => t ∈ log.begins
  | .spared => t ∈ log.spares

/-- The tasks that were started are **carried out**. -/
structure Carried (log : Timeline β) (w : Workshop β) : Prop where
  /-- A task that was started has met exactly one fate, and no other task has met any. -/
  fate : ∀ t, t ∈ log.starts ↔ ∃! fate, w.HasMet log t fate
  /-- No body begins twice. -/
  once : log.begins.Nodup
  /-- The body that begins is that of the task. -/
  own : ∀ {time t body}, (time, .began t body) ∈ log → body = t.work.body
  /-- Bodies begin in the order in which their tasks were started. -/
  order : log.begins.Sublist log.starts
  /-- One body runs at a time: the one that the worker is busy with. All others have ended. -/
  running : ∀ t, t ∈ log.begins ∧ t ∉ log.ends ↔ w.worker = .busy t
  /-- No task is let go but one whose chain was cancelled. -/
  spared : ∀ t ∈ log.spares, ∃ chain, t.work.chain? = some chain ∧
    w.executor.isCancelled chain = true
  /-- The worker can see to a task that it holds at once: the body begins, unless the chain was
  cancelled. -/
  seesTo : ∀ t, w.worker = .holding t → w.SeesTo t

/-- A task that was started has met one fate. -/
theorem Course.fate (h : Course (opened now) log w) (t : Task β) :
    t ∈ log.starts ↔ ∃! fate, w.HasMet log t fate := by
  have hperm := h.attended.starts
  -- no task is started twice, so none meets two fates
  have hnodup := hperm.nodup_iff.mp h.parted.once
  rw [List.nodup_append, List.nodup_append] at hnodup
  obtain ⟨-, ⟨-, -, hbegun⟩, hinHand⟩ := hnodup
  rw [hperm.mem_iff, List.mem_append, List.mem_append]
  constructor
  · rintro (hin | hbegin | hspare)
    · refine ⟨.inHand, Worker.mem_inHand_iff.mp hin, fun fate hfate => ?_⟩
      cases fate with
      | inHand => rfl
      | begun => exact absurd rfl (hinHand t hin t (List.mem_append_left _ hfate))
      | spared => exact absurd rfl (hinHand t hin t (List.mem_append_right _ hfate))
    · refine ⟨.begun, hbegin, fun fate hfate => ?_⟩
      cases fate with
      | inHand =>
        exact absurd rfl (hinHand t (Worker.mem_inHand_iff.mpr hfate) t
          (List.mem_append_left _ hbegin))
      | begun => rfl
      | spared => exact absurd rfl (hbegun t hbegin t hfate)
    · refine ⟨.spared, hspare, fun fate hfate => ?_⟩
      cases fate with
      | inHand =>
        exact absurd rfl (hinHand t (Worker.mem_inHand_iff.mpr hfate) t
          (List.mem_append_right _ hspare))
      | begun => exact absurd rfl (hbegun t hfate t hspare)
      | spared => rfl
  · rintro ⟨fate, hfate, -⟩
    cases fate with
    | inHand => exact .inl (Worker.mem_inHand_iff.mpr hfate)
    | begun => exact .inr (.inl hfate)
    | spared => exact .inr (.inr hfate)

/-- A body that has begun has ended, or it is the one that the worker runs. -/
theorem Course.running_iff (h : Course (opened now) log w) (t : Task β) :
    t ∈ log.begins ∧ t ∉ log.ends ↔ w.worker = .busy t := by
  have hperm := h.attended.begins
  have hnodup := hperm.nodup_iff.mp (h.begins_sublist.nodup h.parted.once)
  rw [List.nodup_append] at hnodup
  rw [hperm.mem_iff, List.mem_append, ← Worker.mem_running_iff]
  constructor
  · rintro ⟨hrun | hend, hnot⟩
    · exact hrun
    · exact absurd hend hnot
  · exact fun hrun => ⟨.inl hrun, fun hend => hnodup.2.2 t hrun t hend rfl⟩

/-- Throughout a course the tasks that were started are carried out. -/
theorem Course.carried (h : Course (opened now) log w) : Carried log w where
  fate := h.fate
  once := h.begins_sublist.nodup h.parted.once
  own := h.attended.own
  order := h.begins_sublist
  running := h.running_iff
  spared t ht := Executor.isOver_iff.mp (h.attended.spared t ht)
  seesTo _ := Workshop.seesTo

end Workshop

end Telecontrol
