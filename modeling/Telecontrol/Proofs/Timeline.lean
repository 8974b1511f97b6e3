import Telecontrol.Task.Executor

/-! # Timelines of an executor

What has happened to the tasks of an executor and when is written on a **timeline**: a task has
entered the queue, was taken by the worker, its body has begun and ended, or it was dropped when the
executor stopped. Whether a task waits is read off the timeline alone, so what is said of the starts
does not lean on the order in which an executor keeps its queue.

Main statements: `Timeline.InOrder` (the order of the starts) and `Timeline.inOrder_of_least` (it
follows from what a single start looks like). -/

namespace Telecontrol

variable {β : Type}

/-! ## Timelines -/

/-- What happens to the tasks of an executor. -/
inductive Incident (β : Type) where
  /-- A task was put into the queue. -/
  | entered (t : Task β)
  /-- The worker took a task from the queue: the task is **started**. -/
  | started (t : Task β)
  /-- The body of a task began. -/
  | began (t : Task β) (body : β)
  /-- The body of a task ended, or gave up. -/
  | ended (t : Task β)
  /-- The worker let go of a task without running its body. -/
  | spared (t : Task β)
  /-- The executor was closed. -/
  | stopped
  /-- What waited was dropped. -/
  | drained
  /-- The worker left for good. -/
  | left

/-- What has happened to the tasks of an executor and when, the latest first. -/
abbrev Timeline (β : Type) := List (Int × Incident β)

namespace Incident

/-- The task that enters the queue. -/
def enter? : Incident β → Option (Task β)
  | .entered t => some t
  | _ => none

/-- The task that starts. -/
def start? : Incident β → Option (Task β)
  | .started t => some t
  | _ => none

/-- The task whose body begins. -/
def begin? : Incident β → Option (Task β)
  | .began t _ => some t
  | _ => none

/-- The task whose body ends. -/
def end? : Incident β → Option (Task β)
  | .ended t => some t
  | _ => none

/-- The task that is let go. -/
def spare? : Incident β → Option (Task β)
  | .spared t => some t
  | _ => none

end Incident

namespace Timeline

/-- The tasks that have entered the queue, the latest first. -/
def entries (log : Timeline β) : List (Task β) := log.filterMap (·.2.enter?)

/-- The tasks that were started, the latest first. -/
def starts (log : Timeline β) : List (Task β) := log.filterMap (·.2.start?)

/-- The tasks whose bodies have begun, the latest first. -/
def begins (log : Timeline β) : List (Task β) := log.filterMap (·.2.begin?)

/-- The tasks whose bodies have ended, the latest first. -/
def ends (log : Timeline β) : List (Task β) := log.filterMap (·.2.end?)

/-- The tasks that were let go without running, the latest first. -/
def spares (log : Timeline β) : List (Task β) := log.filterMap (·.2.spare?)

/-- A task **waits** from its entry until it is started or the queue is dropped. -/
def Waits (t : Task β) : Timeline β → Prop
  | [] => False
  | (_, .entered u) :: log => t = u ∨ Waits t log
  | (_, .started u) :: log => t ≠ u ∧ Waits t log
  | (_, .drained) :: _ => False
  | (_, .began ..) :: log | (_, .ended _) :: log | (_, .spared _) :: log | (_, .stopped) :: log
  | (_, .left) :: log => Waits t log

variable {log older since : Timeline β} {t u : Task β} {time : Int}

/-- The entries of a timeline are the later ones on top of the earlier ones. -/
@[simp] theorem entries_append (since older : Timeline β) :
    (since ++ older).entries = since.entries ++ older.entries := List.filterMap_append

/-- So do the tasks that were started. -/
@[simp] theorem starts_append (since older : Timeline β) :
    (since ++ older).starts = since.starts ++ older.starts := List.filterMap_append

/-- So do those whose bodies began. -/
@[simp] theorem begins_append (since older : Timeline β) :
    (since ++ older).begins = since.begins ++ older.begins := List.filterMap_append

/-- So do those whose bodies ended. -/
@[simp] theorem ends_append (since older : Timeline β) :
    (since ++ older).ends = since.ends ++ older.ends := List.filterMap_append

/-- So do those that were spared. -/
@[simp] theorem spares_append (since older : Timeline β) :
    (since ++ older).spares = since.spares ++ older.spares := List.filterMap_append

/-- What is no entry adds none. -/
theorem entries_cons_of_none {x : Incident β} (h : x.enter? = none) :
    entries ((time, x) :: log) = log.entries := List.filterMap_cons_none h

/-- A start is no entry. -/
@[simp] theorem entries_cons_started : entries ((time, .started t) :: log) = log.entries := rfl

/-- What had entered by an earlier moment has entered. -/
theorem entries_sublist (h : older <:+ log) : older.entries.Sublist log.entries :=
  h.sublist.filterMap _

/-- What waits has entered. -/
theorem mem_entries_of_waits (h : Waits t log) : t ∈ log.entries := by
  induction log with
  | nil => exact h.elim
  | cons x log ih =>
    obtain ⟨time, incident⟩ := x
    cases incident with
    | entered u => exact List.mem_cons.mpr (h.imp_right ih)
    | started u => exact ih h.2
    | drained => exact h.elim
    | began | ended | spared | stopped | left => exact ih h

/-- What waits has entered since, or has waited all the time. -/
theorem waits_append (h : Waits t (since ++ older)) : t ∈ since.entries ∨ Waits t older := by
  induction since with
  | nil => exact .inr h
  | cons x since ih =>
    obtain ⟨time, incident⟩ := x
    cases incident with
    | entered u =>
      rcases h with rfl | h
      · exact .inl (List.mem_cons_self ..)
      · exact (ih h).imp_left (List.mem_cons_of_mem _)
    | started u => exact ih h.2
    | drained => exact h.elim
    | began | ended | spared | stopped | left => exact ih h

/-- Of two tasks that wait together one cannot go on waiting while the other one disappears: nothing
but a start takes it from the queue, since a drop of the queue would have taken both. -/
theorem waits_or_started (hnum : (since ++ older).entries.Pairwise fun a b => b.seq < a.seq)
    (ht : Waits t older) (hu : Waits u older) (hkept : Waits u (since ++ older)) :
    Waits t (since ++ older) ∨ t ∈ since.starts := by
  induction since with
  | nil => exact .inl ht
  | cons x since ih =>
    obtain ⟨time, incident⟩ := x
    cases incident with
    | entered v =>
      obtain ⟨hv, hnum⟩ := List.pairwise_cons.mp hnum
      rcases hkept with rfl | hkept
      -- a task that has entered before does not enter again
      · have hmem : u ∈ entries (since ++ older) :=
          (entries_append since older).symm ▸ List.mem_append_right _ (mem_entries_of_waits hu)
        exact absurd (hv u hmem) (Nat.lt_irrefl _)
      · exact (ih hnum hkept).imp_left .inr
    | started v =>
      rcases ih hnum hkept.2 with h | h
      · by_cases htv : t = v
        · exact .inr (htv ▸ List.mem_cons_self ..)
        · exact .inl ⟨htv, h⟩
      · exact .inr (List.mem_cons_of_mem _ h)
    | drained => exact hkept.elim
    | began | ended | spared | stopped | left => exact ih hnum hkept

/-- What starts nothing adds no start. -/
theorem suffix_of_starts_eq_nil (h : since.starts = []) {rest : Timeline β}
    (hstart : (time, .started t) :: rest <:+ since ++ older) :
    (time, .started t) :: rest <:+ older := by
  induction since with
  | nil => exact hstart
  | cons x since ih =>
    obtain ⟨time', incident⟩ := x
    cases incident with
    | started u => cases h
    | entered | began | ended | spared | stopped | drained | left =>
      exact ih h ((List.suffix_cons_iff.mp hstart).resolve_left fun heq => by cases heq)

/-- **The starts are in order.** Throughout a timeline `older` is what had happened before. -/
structure InOrder (log : Timeline β) : Prop where
  /-- The number of a task is its place in the order of insertion. -/
  numbered : log.entries.Pairwise fun later earlier => earlier.seq < later.seq
  /-- A task that starts is ready. -/
  ready : ∀ {time t older}, (time, .started t) :: older <:+ log → t.due.isReady time = true
  /-- A task that starts is the least of those that wait. -/
  least : ∀ {time t older}, (time, .started t) :: older <:+ log →
    Waits t older ∧ ∀ u, Waits u older → u ≠ t → t.Before u
  /-- A timed task does not start before its deadline. -/
  punctual : ∀ {time t deadline}, (time, .started t) ∈ log → t.due = .timed deadline →
    deadline ≤ time
  /-- No timed task starts while an immediate one waits. -/
  yields : ∀ {time t older deadline}, (time, .started t) :: older <:+ log →
    t.due = .timed deadline → ∀ u, Waits u older → u.due ≠ .immediate
  /-- Immediate tasks start in the order of insertion. -/
  firstCome : ∀ {time t older u}, (time, .started t) :: older <:+ log → t.due = .immediate →
    u ∈ starts older → u.due = .immediate → u.seq < t.seq
  /-- Of two timed tasks that wait together, the one that is due earlier, or at the same instant
  and inserted earlier, has started by the time the other one starts. -/
  together : ∀ {time t u d e since both}, (time, .started u) :: (since ++ both) <:+ log →
    Waits t both → Waits u both → t.due = .timed d → u.due = .timed e →
    d < e ∨ d = e ∧ t.seq < u.seq → t ∈ starts since

/-- An entry of a timeline has happened after what follows it. -/
theorem exists_suffix_of_mem_starts (h : t ∈ log.starts) :
    ∃ time older, (time, .started t) :: older <:+ log := by
  obtain ⟨⟨time, incident⟩, hmem, heq⟩ := List.mem_filterMap.mp h
  cases incident with
  | entered | began | ended | spared | stopped | drained | left => cases heq
  | started u =>
    cases heq
    obtain ⟨since, older, rfl⟩ := List.append_of_mem hmem
    exact ⟨time, older, List.suffix_append ..⟩

end Timeline

/-! ## The order of tasks -/

namespace Task

/-- No task comes before itself. -/
theorem Before.irrefl (t : Task β) : ¬ t.Before t := by
  rintro (h | ⟨-, h⟩)
  · exact Due.lt_irrefl _ h
  · exact Nat.lt_irrefl _ h

/-- Among immediate tasks the order is that of insertion. -/
theorem Before.seq_lt {t u : Task β} (h : t.Before u) (hu : u.due = .immediate) :
    t.seq < u.seq := by
  rcases h with h | h
  · exact absurd (hu ▸ h) (Due.not_lt_immediate _)
  · exact h.2

/-- Timed tasks are ordered by deadline and insertion. -/
theorem before_timed_iff {t u : Task β} {d e : Int} (ht : t.due = .timed d)
    (hu : u.due = .timed e) : t.Before u ↔ d < e ∨ d = e ∧ t.seq < u.seq := by
  rw [Before, ht, hu, Due.timed_lt_timed, Due.timed.injEq]

end Task

namespace Timeline

/-- The whole order follows from what a single start looks like. -/
theorem inOrder_of_least {log : Timeline β}
    (hnum : log.entries.Pairwise fun later earlier => earlier.seq < later.seq)
    (hleast : ∀ {time t older}, (time, .started t) :: older <:+ log →
      t.due.isReady time = true ∧ Waits t older ∧ ∀ u, Waits u older → u ≠ t → t.Before u) :
    InOrder log where
  numbered := hnum
  ready h := (hleast h).1
  least h := (hleast h).2
  punctual {time t deadline} h hdue := by
    obtain ⟨since, older, rfl⟩ := List.append_of_mem h
    have hready := (hleast (List.suffix_append ..)).1
    rwa [hdue, Due.isReady, decide_eq_true_eq] at hready
  yields {time t older deadline} h hdue u hu himm := by
    have hne : u ≠ t := fun heq => by rw [← heq, himm] at hdue; cases hdue
    rcases (hleast h).2.2 u hu hne with hlt | ⟨heq, -⟩
    · exact Due.not_lt_immediate _ (himm ▸ hlt)
    · rw [hdue, himm] at heq; cases heq
  firstCome {time t older u} h hdue hu himm := by
    obtain ⟨time', before, since, rfl⟩ := exists_suffix_of_mem_starts hu
    have hu' := (hleast ((List.suffix_append since _).trans ((List.suffix_cons ..).trans h))).2
    rcases waits_append (hleast h).2.1 with hin | ⟨hne, hw⟩
    -- the later one entered when the earlier one had started
    · have hsub := hnum.sublist (entries_sublist h)
      rw [entries_cons_started, entries_append, List.pairwise_append] at hsub
      have hmem : u ∈ entries before := mem_entries_of_waits hu'.1
      exact hsub.2.2 t hin u hmem
    -- both have waited together
    · exact (hu'.2 t hw hne).seq_lt hdue
  together {time t u d e since both} h ht hu hd he hlt := by
    have hbefore := (Task.before_timed_iff hd he).mpr hlt
    obtain ⟨-, hw, hmin⟩ := hleast h
    have hnum' := hnum.sublist (entries_sublist ((List.suffix_cons ..).trans h))
    rcases waits_or_started hnum' ht hu hw with hw' | hstart
    · have hne : t ≠ u := fun heq => Task.Before.irrefl u (heq ▸ hbefore)
      exact absurd (hbefore.trans (hmin t hw' hne)) (Task.Before.irrefl t)
    · exact hstart

end Timeline

end Telecontrol
