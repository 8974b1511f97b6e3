import Telecontrol.Task.Due
import Telecontrol.Task.Error

/-! # The executor

An **executor** keeps deferred work in one queue and hands it to one worker, a task at a time.
The queue is ordered by due time and, among equals, by the order of arrival. **Periodic** work is a
**chain**: each run puts the next one into the queue before its body begins, one interval after the
actual start. A chain ends when it is cancelled or when the executor stops; a stopped executor
accepts nothing and never runs again.

The executor does not know what a body does: the type `β` of bodies is a parameter.

Main statements: `Executor.mem_push`, `Executor.next?_eq_some_iff` and `Executor.next?_least` (the
task taken is ready and comes before every other one). -/

namespace Telecontrol

/-- The identity of a chain of periodic runs. -/
abbrev ChainId := Nat

/-- What a task of the queue consists of. -/
inductive Work (β : Type) where
  /-- A body that runs once. -/
  | once (body : β)
  /-- The next run of a chain. -/
  | periodic (chain : ChainId) (interval : Nat) (body : β)
  deriving DecidableEq, Repr

namespace Work

/-- The chain a task belongs to. -/
def chain? {β : Type} : Work β → Option ChainId
  | .once _ => none
  | .periodic chain _ _ => some chain

/-- The body of a task. -/
def body {β : Type} : Work β → β
  | .once b => b
  | .periodic _ _ b => b

end Work

/-- A **task** of the queue: its due time, its number in the order of arrival, and the work. -/
structure Task (β : Type) where
  due : Due
  seq : Nat
  work : Work β
  deriving DecidableEq, Repr

namespace Task

variable {β : Type}

/-- The order of the queue: by due time, then by arrival. -/
def Before (s t : Task β) : Prop := s.due < t.due ∨ (s.due = t.due ∧ s.seq < t.seq)

instance (s t : Task β) : Decidable (s.Before t) :=
  inferInstanceAs (Decidable (_ ∨ _))

/-- What comes before the first of two tasks comes before the second. -/
theorem Before.trans {s t u : Task β} (h : s.Before t) (h' : t.Before u) : s.Before u := by
  rcases h with h | ⟨h, hs⟩ <;> rcases h' with h' | ⟨h', hs'⟩
  · exact .inl (Due.lt_trans h h')
  · exact .inl (h' ▸ h)
  · exact .inl (h ▸ h')
  · exact .inr ⟨h.trans h', Nat.lt_trans hs hs'⟩

/-- Put a task behind all tasks that are due no later. -/
def place (t : Task β) : List (Task β) → List (Task β)
  | [] => [t]
  | u :: rest => if t.due < u.due then t :: u :: rest else u :: place t rest

/-- A task that is put in its place is there, with what was there. -/
@[simp] theorem mem_place {t u : Task β} {l : List (Task β)} : u ∈ place t l ↔ u = t ∨ u ∈ l := by
  induction l with
  | nil => simp [place]
  | cons x rest ih =>
    simp only [place]
    split
    · simp
    · simp only [List.mem_cons, ih]
      exact ⟨fun h => by rcases h with h | h | h <;> simp [h],
        fun h => by rcases h with h | h | h <;> simp [h]⟩

/-- There is one task more. -/
@[simp] theorem length_place (t : Task β) (l : List (Task β)) :
    (place t l).length = l.length + 1 := by
  induction l with
  | nil => rfl
  | cons x rest ih =>
    simp only [place]
    split <;> simp [ih]

/-- The latest task is put where the order of the queue wants it. -/
theorem place_pairwise {t : Task β} {l : List (Task β)} (h : l.Pairwise Before)
    (ht : ∀ u ∈ l, u.seq < t.seq) : (place t l).Pairwise Before := by
  induction l with
  | nil => simp [place]
  | cons x rest ih =>
    obtain ⟨hx, hr⟩ := List.pairwise_cons.mp h
    simp only [place]
    split
    · rename_i hlt
      -- earlier than the head, so than all
      refine List.pairwise_cons.mpr ⟨fun u hu => ?_, h⟩
      rcases List.mem_cons.mp hu with rfl | hu
      · exact .inl hlt
      · exact Before.trans (.inl hlt) (hx u hu)
    · rename_i hge
      refine List.pairwise_cons.mpr
        ⟨fun u hu => ?_, ih hr fun u hu => ht u (List.mem_cons_of_mem _ hu)⟩
      -- not before the head: the new task is later, or as late and inserted afterwards
      rcases mem_place.mp hu with rfl | hu
      · by_cases hlt : x.due < u.due
        · exact .inl hlt
        · exact .inr ⟨Due.eq_of_not_lt hlt hge, ht x (List.mem_cons_self ..)⟩
      · exact hx u hu

end Task

/-- An **executor** of bodies of type `β`. -/
structure Executor (β : Type) where
  /-- The tasks that wait, the next one first. -/
  queue : List (Task β)
  /-- The number of the next task. -/
  nextSeq : Nat
  /-- The identity of the next chain. -/
  nextChain : ChainId
  /-- The chains that were cancelled. -/
  cancelled : List ChainId
  /-- Whether work is accepted and run. -/
  running : Bool
  /-- The queue is in order. -/
  ordered : queue.Pairwise Task.Before
  /-- Numbers are not given twice. -/
  fresh : ∀ t ∈ queue, t.seq < nextSeq

namespace Executor

variable {β : Type}

/-- A new executor: it runs and nothing waits. -/
def start : Executor β where
  queue := []
  nextSeq := 0
  nextChain := 0
  cancelled := []
  running := true
  ordered := .nil
  fresh := by simp

instance : Inhabited (Executor β) := ⟨start⟩

/-- Put work into the queue. -/
def push (e : Executor β) (due : Due) (work : Work β) : Executor β :=
  { e with
    queue := Task.place ⟨due, e.nextSeq, work⟩ e.queue
    nextSeq := e.nextSeq + 1
    ordered := Task.place_pairwise e.ordered e.fresh
    fresh := fun t ht => by
      rcases Task.mem_place.mp ht with rfl | ht
      · exact Nat.lt_succ_self _
      · exact Nat.lt_succ_of_lt (e.fresh t ht) }

/-- Hand a body to the executor; a stopped one refuses it. -/
def add (e : Executor β) (now : Int) (delay : Int) (body : β) : Executor β × Bool :=
  if e.running then (e.push (.ofDelay delay now) (.once body), true) else (e, false)

/-- Begin a chain: its first run comes one interval from now. -/
def addPeriodic (e : Executor β) (now : Int) (interval : Nat) (body : β) :
    Except TaskError (Executor β × ChainId) :=
  if interval < minInterval then .error (.intervalTooShort interval minInterval)
  else if e.running then
    .ok ({ e.push (.timed (now + interval)) (.periodic e.nextChain interval body) with
      nextChain := e.nextChain + 1 }, e.nextChain)
  else .error .stopped

/-- End a chain; a run in progress completes. -/
def cancel (e : Executor β) (chain : ChainId) : Executor β :=
  { e with cancelled := chain :: e.cancelled }

/-- Whether a chain was cancelled. -/
def isCancelled (e : Executor β) (chain : ChainId) : Bool := e.cancelled.contains chain

/-- Close the executor for good: nothing is accepted and nothing is taken any more. What waits still
waits. -/
def halt (e : Executor β) : Executor β := { e with running := false }

/-- Drop what waits. -/
def drain (e : Executor β) : Executor β :=
  { e with queue := [], ordered := .nil, fresh := by simp }

/-- Stop: close the executor, then drop what waits. -/
def stop (e : Executor β) : Executor β := e.halt.drain

/-- The number of tasks that wait. -/
def pending (e : Executor β) : Nat := e.queue.length

/-- The executor in words. -/
def describe (e : Executor β) : String :=
  s!"TaskExecutor \x7b running: {e.running}, pending: {e.pending} \x7d"

/-- Take the next task, if the executor runs and the task is ready. -/
def next? (e : Executor β) (now : Int) : Option (Task β × Executor β) :=
  match h : e.queue with
  | [] => none
  | t :: rest =>
    if e.running && t.due.isReady now then
      some (t, { e with
        queue := rest
        ordered := (List.pairwise_cons.mp (h ▸ e.ordered)).2
        fresh := fun u hu => e.fresh u (h ▸ List.mem_cons_of_mem _ hu) })
    else none

/-- What a task taken from the queue runs at `now`. A run of a chain first puts the next run into
the queue; a cancelled chain runs nothing. -/
def launch (e : Executor β) (now : Int) (t : Task β) : Executor β × Option β :=
  match t.work with
  | .once body => (e, some body)
  | .periodic chain interval body =>
    -- a chain ends here: its next run is not put into the queue
    if e.isCancelled chain then (e, none)
    else if e.running then
      -- the next run counts from the actual start: a late worker does not catch up
      (e.push (.timed (now + interval)) (.periodic chain interval body), some body)
    else (e, some body)

/-- The earliest instant at which a waiting task is due. -/
def nextDeadline? (e : Executor β) : Option Int :=
  e.queue.findSome? fun t => match t.due with
    | .immediate => none
    | .timed time => some time

/-! ## The queue -/

/-- A closed executor takes no task. -/
@[simp] theorem next?_halt (e : Executor β) (now : Int) : e.halt.next? now = none := by
  unfold next?
  split <;> rfl

/-- A closed executor refuses every body and stays as it is. -/
@[simp] theorem add_halt (e : Executor β) (now delay : Int) (body : β) :
    e.halt.add now delay body = (e.halt, false) := rfl

/-- What waits after work was put into the queue. -/
theorem mem_push {e : Executor β} {due : Due} {work : Work β} {t : Task β} :
    t ∈ (e.push due work).queue ↔ t = ⟨due, e.nextSeq, work⟩ ∨ t ∈ e.queue := Task.mem_place

/-- The task taken is the first of the queue; it is ready, and the executor runs. -/
theorem next?_eq_some_iff (e e' : Executor β) (now : Int) (t : Task β) :
    e.next? now = some (t, e') ↔
      e.running = true ∧ t.due.isReady now = true ∧ e.queue = t :: e'.queue ∧
        e'.nextSeq = e.nextSeq ∧ e'.nextChain = e.nextChain ∧ e'.cancelled = e.cancelled ∧
        e'.running = e.running := by
  unfold next?
  split
  · rename_i h
    simp [h]
  · rename_i u rest h
    split
    · rename_i hr
      rw [Bool.and_eq_true] at hr
      constructor
      · intro heq
        obtain ⟨rfl, rfl⟩ := Prod.mk.inj (Option.some.inj heq)
        exact ⟨hr.1, hr.2, h, rfl, rfl, rfl, rfl⟩
      · rintro ⟨_, _, hq, h1, h2, h3, h4⟩
        obtain ⟨rfl, rfl⟩ := List.cons.inj (h.symm.trans hq)
        obtain ⟨q, n, c, x, r, o, f⟩ := e'
        simp only at h1 h2 h3 h4
        -- the executors agree in every field
        subst h1 h2 h3 h4
        rfl
    · rename_i hr
      rw [Bool.and_eq_true] at hr
      constructor
      · intro heq; cases heq
      · rintro ⟨h1, h2, hq, _⟩
        obtain ⟨rfl, _⟩ := List.cons.inj (h.symm.trans hq)
        exact absurd ⟨h1, h2⟩ hr

/-- The task taken comes before every task that stays. -/
theorem next?_least {e e' : Executor β} {now : Int} {t : Task β}
    (h : e.next? now = some (t, e')) {u : Task β} (hu : u ∈ e'.queue) : t.Before u := by
  have hq := ((next?_eq_some_iff e e' now t).mp h).2.2.1
  exact (List.pairwise_cons.mp (hq ▸ e.ordered)).1 u hu

end Executor

end Telecontrol
