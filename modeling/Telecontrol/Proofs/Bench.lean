import Telecontrol.Proofs.Schedule

/-! # The worker at close range

`Executor.launch` settles in one go whether a task runs at all, at which instant its run starts and
when its chain runs next. A worker does these things one after the other, and meanwhile others may
hand over bodies, begin and cancel chains, or stop the executor. A **bench** is an executor with its
clock and a worker at close range: it takes a task, looks at the chain of the task, starts the run,
arms the next one and only then begins the body. The steps of a bench are written into a **diary**.

Main statements: `Bench.fires` (at close range the worker does what `Executor.launch` does), and
`Session.step?_fires` (a session is a run of a bench). -/

namespace Telecontrol

variable {β : Type}

/-! ## Benches -/

/-- What the worker of a bench is at. -/
inductive Stance (β : Type) where
  /-- It looks for a task. -/
  | idle
  /-- It has taken a task and has not looked at its chain yet. -/
  | holding (t : Task β)
  /-- The run of the task has started at `time`; the next run is not armed yet. -/
  | starting (t : Task β) (time : Int)
  /-- It runs a body. -/
  | busy

/-- The chain whose run the worker has taken and not armed again. -/
def Stance.chain? : Stance β → Option ChainId
  | .holding t | .starting t _ => t.work.chain?
  | .idle | .busy => none

/-- Whether the worker is between the start of a run of the chain and the arming of the next one. -/
def Stance.isStarting (chain : ChainId) : Stance β → Bool
  | .starting t _ => t.work.chain? == some chain
  | .idle | .holding _ | .busy => false

/-- The worker starts no run of a chain of which it has taken none. -/
theorem Stance.isStarting_eq_false {s : Stance β} {chain : ChainId} (h : s.chain? ≠ some chain) :
    s.isStarting chain = false := by
  cases s with
  | starting t time => exact beq_eq_false_iff_ne.mpr h
  | idle | holding | busy => rfl

/-- A **bench**: an executor, its clock and its worker at close range. -/
structure Bench (β : Type) where
  executor : Executor β
  now : Int
  stance : Stance β

/-- The **registration** of a chain that was accepted at `time`. -/
structure Registration (β : Type) where
  chain : ChainId
  time : Int
  interval : Nat
  body : β

namespace Registration

/-- The work of the runs of the chain. -/
def work (r : Registration β) : Work β := .periodic r.chain r.interval r.body

/-- The work of a registration is of its chain. -/
@[simp] theorem chain?_work (r : Registration β) : r.work.chain? = some r.chain := rfl

/-- When the next run of the chain is due after the runs that have started, the latest first: one
interval after the latest, or after the registration. -/
def next (r : Registration β) (starts : List Int) : Int := starts.headD r.time + r.interval

end Registration

/-- A mark in the diary of a bench. -/
inductive Mark (β : Type) where
  /-- A chain was accepted. -/
  | registered (r : Registration β)
  /-- A chain was cancelled. -/
  | cancelled (chain : ChainId)
  /-- The executor was closed. -/
  | stopped
  /-- A run of a chain started. -/
  | started (chain : ChainId) (time : Int)
  /-- The next run of a chain was put into the queue. -/
  | armed (chain : ChainId) (due : Int)
  /-- The body of a chain began. -/
  | began (chain : ChainId) (body : β)

namespace Mark

/-- The chain that a mark shows to exist. A chain may be named for cancelling before. -/
def chain? : Mark β → Option ChainId
  | .registered r => some r.chain
  | .started chain _ | .armed chain _ | .began chain _ => some chain
  | .cancelled _ | .stopped => none

/-- The instant at which the mark shows a run of the chain to start. -/
def start? (chain : ChainId) : Mark β → Option Int
  | .started c time => if c = chain then some time else none
  | _ => none

/-- Whether the mark shows the body of the chain to begin. -/
def isBegin (chain : ChainId) : Mark β → Bool
  | .began c _ => c == chain
  | _ => false

end Mark

/-- A **diary** of a bench, the latest mark first. -/
abbrev Diary (β : Type) := List (Mark β)

namespace Diary

/-- The starts of the runs of a chain, the latest first. -/
def starts (chain : ChainId) (d : Diary β) : List Int := d.filterMap (Mark.start? chain)

/-- How often the body of a chain has begun. -/
def begins (chain : ChainId) (d : Diary β) : Nat := d.countP (Mark.isBegin chain)

variable {x : ChainId} {d : Diary β}

/-- The starts in two parts of a diary are those in each. -/
theorem starts_append (since : Diary β) :
    starts x (since ++ d) = starts x since ++ starts x d := List.filterMap_append

/-- The bodies begun in two parts of a diary are those begun in each. -/
theorem begins_append (since : Diary β) :
    begins x (since ++ d) = begins x since + begins x d := List.countP_append

/-- A run that starts is a start of its own chain. -/
theorem starts_started (chain : ChainId) (time : Int) :
    starts x [(.started chain time : Mark β)] = if chain = x then [time] else [] := by
  by_cases h : chain = x <;> simp [starts, Mark.start?, h]

/-- A body that begins is that of its own chain. -/
theorem begins_began (chain : ChainId) (body : β) :
    begins x (.began chain body :: d) = begins x d + if chain = x then 1 else 0 := by
  rw [begins, List.countP_cons]
  simp [Mark.isBegin, begins]

/-- A diary in which no run of a chain starts adds none to an earlier one. -/
theorem starts_append_of_nil {since : Diary β} (h : starts x since = []) :
    starts x (since ++ d) = starts x d := by rw [starts_append, h, List.nil_append]

/-- A mark that is not the latest one was written before. -/
theorem suffix_of_ne {m latest : Mark β} {older : Diary β} (h : m :: older <:+ latest :: d)
    (hne : m ≠ latest) : m :: older <:+ d :=
  (List.suffix_cons_iff.mp h).resolve_left fun heq => hne (List.cons.inj heq).1

/-- A mark stands in the later or in the earlier part of a diary, with what was written before. -/
theorem suffix_append_cases {m : Mark β} {older since : Diary β} (h : m :: older <:+ since ++ d) :
    (∃ rest, m :: rest <:+ since ∧ older = rest ++ d) ∨ m :: older <:+ d := by
  induction since with
  | nil => exact .inr h
  | cons m' since ih =>
    rcases List.suffix_cons_iff.mp h with heq | h
    · obtain ⟨rfl, rfl⟩ := List.cons.inj heq
      exact .inl ⟨since, List.suffix_rfl, rfl⟩
    · exact (ih h).imp_left fun ⟨rest, hsuf, hrest⟩ =>
        ⟨rest, hsuf.trans (List.suffix_cons ..), hrest⟩

/-- A diary is **quiet** when no chain starts a run in it and no body of a chain begins. -/
def Quiet (d : Diary β) : Prop := ∀ x, d.starts x = [] ∧ d.begins x = 0

/-- A diary **shows** a task whose run started at `time`: if it is a run of a chain, the chain
starts in it once, its body begins once, and no other chain does anything. -/
def Shows (t : Task β) (time : Int) (d : Diary β) : Prop :=
  ∀ x, d.starts x = (if t.work.chain? = some x then [time] else []) ∧
    d.begins x = if t.work.chain? = some x then 1 else 0

/-- What is quiet may go on quietly. -/
theorem Quiet.append {since : Diary β} (h' : since.Quiet) (h : d.Quiet) : (since ++ d).Quiet :=
  fun x => ⟨by rw [starts_append, (h' x).1, (h x).1]; rfl,
    by rw [begins_append, (h' x).2, (h x).2]⟩

/-- A diary shows the same when it goes on quietly. -/
theorem Shows.append_quiet {since : Diary β} {t : Task β} {time : Int} (h : d.Shows t time)
    (h' : since.Quiet) : (since ++ d).Shows t time :=
  fun x => ⟨by rw [starts_append, (h' x).1, (h x).1]; rfl,
    by rw [begins_append, (h' x).2, (h x).2, Nat.zero_add]⟩

/-- No run of a chain has started that the diary does not know. -/
theorem starts_eq_nil_of_unknown (h : ∀ m ∈ d, m.chain? ≠ some x) : starts x d = [] := by
  rw [starts, List.filterMap_eq_nil_iff]
  intro m hm
  cases m with
  | started c time => exact if_neg fun hc => h _ hm (congrArg some hc)
  | _ => rfl

/-- No body of a chain has begun that the diary does not know. -/
theorem begins_eq_zero_of_unknown (h : ∀ m ∈ d, m.chain? ≠ some x) : begins x d = 0 := by
  rw [begins, List.countP_eq_zero]
  intro m hm
  cases m with
  | began c body => exact fun hc => h _ hm (congrArg some (eq_of_beq hc))
  | _ => exact Bool.false_ne_true

end Diary

namespace Bench

/-- A bench with a new executor. -/
def opened (now : Int) : Bench β := ⟨.start, now, .idle⟩

/-- A **step** of a bench and what it writes into the diary. Bodies, chains and cancellations may
come from anywhere, also from the body that runs; who hands something over has read the clock at
some `time` before. -/
inductive Step : Bench β → Diary β → Bench β → Prop
  /-- Time passes, however much, whatever the worker is at. -/
  | pass (b : Bench β) (ms : Nat) : Step b [] { b with now := b.now + ms }
  /-- A body is handed over, and accepted or refused. -/
  | add {b : Bench β} {time delay : Int} {body : β} {e : Executor β} {accepted : Bool}
      (htime : time ≤ b.now) (h : b.executor.add time delay body = (e, accepted)) :
      Step b [] { b with executor := e }
  /-- A chain is accepted. -/
  | register {b : Bench β} {time : Int} {interval : Nat} {body : β} {e : Executor β}
      {chain : ChainId} (htime : time ≤ b.now)
      (h : b.executor.addPeriodic time interval body = .ok (e, chain)) :
      Step b [.registered ⟨chain, time, interval, body⟩] { b with executor := e }
  /-- A chain is cancelled. -/
  | cancel (b : Bench β) (chain : ChainId) :
      Step b [.cancelled chain] { b with executor := b.executor.cancel chain }
  /-- The executor is closed. -/
  | halt (b : Bench β) : Step b [.stopped] { b with executor := b.executor.halt }
  /-- What waits is dropped, once the executor is closed. -/
  | drain {b : Bench β} (h : b.executor.running = false) :
      Step b [] { b with executor := b.executor.drain }
  /-- The idle worker takes the next task. -/
  | take {b : Bench β} {t : Task β} {e : Executor β} (hstance : b.stance = .idle)
      (h : b.executor.next? b.now = some (t, e)) :
      Step b [] { b with executor := e, stance := .holding t }
  /-- The task taken is over, and the worker lets go of it. -/
  | drop {b : Bench β} {t : Task β} (hstance : b.stance = .holding t)
      (h : b.executor.isOver t = true) : Step b [] { b with stance := .idle }
  /-- The run of the task taken starts. -/
  | start {b : Bench β} {t : Task β} (hstance : b.stance = .holding t)
      (h : b.executor.isOver t = false) :
      Step b (t.work.chain?.toList.map (.started · b.now)) { b with stance := .starting t b.now }
  /-- A body that runs once begins. -/
  | once {b : Bench β} {t : Task β} {time : Int} {body : β} (hstance : b.stance = .starting t time)
      (h : t.work = .once body) : Step b [] { b with stance := .busy }
  /-- The next run of the chain is armed, and the body begins. -/
  | arm {b : Bench β} {t : Task β} {time : Int} {chain : ChainId} {interval : Nat} {body : β}
      (hstance : b.stance = .starting t time) (h : t.work = .periodic chain interval body)
      (hrunning : b.executor.running = true) :
      Step b [.began chain body, .armed chain (time + interval)]
        { b with executor := b.executor.rearm time t.work, stance := .busy }
  /-- The executor has stopped meanwhile: the body begins, and no next run is armed. -/
  | last {b : Bench β} {t : Task β} {time : Int} {chain : ChainId} {interval : Nat} {body : β}
      (hstance : b.stance = .starting t time) (h : t.work = .periodic chain interval body)
      (hrunning : b.executor.running = false) :
      Step b [.began chain body] { b with stance := .busy }
  /-- The body ends, or gives up. -/
  | finish {b : Bench β} (hstance : b.stance = .busy) : Step b [] { b with stance := .idle }

/-- A **run** of a bench: steps one after the other, with the diary they write. -/
inductive Run (b : Bench β) : Diary β → Bench β → Prop
  | refl : Run b [] b
  | step {d since : Diary β} {c c' : Bench β} (h : Run b d c) (hstep : Step c since c') :
      Run b (since ++ d) c'

variable {b c c' : Bench β} {d since : Diary β}

/-- A step is a run. -/
theorem Step.run (h : Step b d c) : Run b d c := List.append_nil d ▸ Run.refl.step h

/-- A run may be followed by another. -/
theorem Run.trans (h : Run b d c) (h' : Run c since c') : Run b (since ++ d) c' := by
  induction h' with
  | refl => exact h
  | step _ hstep ih => exact List.append_assoc .. ▸ ih.step hstep

/-- The worker **fires** the task that it holds, without a delay: it lets go of a task that is over;
any other one starts, arms the next run of its chain, and its body begins. -/
def Fires (b : Bench β) (t : Task β) : Prop :=
  if b.executor.isOver t then Run b [] { b with stance := .idle }
  else ∃ d, Run b d { b with executor := b.executor.rearm b.now t.work, stance := .busy } ∧
    d.Shows t b.now

/-- Whatever task the worker holds, it can fire it. -/
theorem fires {t : Task β} (hstance : b.stance = .holding t) : b.Fires t := by
  rw [Fires]
  cases hover : b.executor.isOver t with
  | true => exact (Step.drop hstance hover).run
  | false =>
    have hstart := (Step.start hstance hover).run
    rw [if_neg Bool.false_ne_true]
    cases hwork : t.work with
    | once body =>
      rw [hwork] at hstart
      exact ⟨_, hstart.step (.once rfl hwork), fun x => by rw [hwork]; exact ⟨rfl, rfl⟩⟩
    -- the chain goes on exactly when the executor runs at this moment
    | periodic chain interval body =>
      have hshows (since : Diary β) (hstarts : ∀ x, since.starts x = [])
          (hbegins : ∀ x, since.begins x = if chain = x then 1 else 0) :
          Diary.Shows t b.now (since ++ [.started chain b.now]) := fun x => by
        rw [Diary.starts_append, Diary.begins_append, hstarts, hbegins, hwork,
          Diary.starts_started]
        simp [Diary.begins, Mark.isBegin, Work.chain?]
      rw [hwork] at hstart
      cases hrunning : b.executor.running with
      | true =>
        refine ⟨_, hwork ▸ hstart.step (.arm rfl hwork hrunning),
          hshows _ (fun _ => rfl) fun x => ?_⟩
        exact (Diary.begins_began ..).trans (Nat.zero_add _)
      | false =>
        have hlast := hstart.step (.last rfl hwork hrunning)
        simp only [Executor.rearm, hrunning]
        refine ⟨_, hlast, hshows _ (fun _ => rfl) fun x => ?_⟩
        exact (Diary.begins_began ..).trans (Nat.zero_add _)

end Bench

/-! ## Sessions -/

namespace Session

open Bench

/-- The bench of a session. -/
def bench (s : Session) (stance : Stance Body) : Bench Body := ⟨s.executor, s.now, stance⟩

/-- One session comes from another quietly, by steps that leave the worker alone. -/
def Tends (stance : Stance Body) (s s' : Session) : Prop :=
  ∃ d, Run (s.bench stance) d (s'.bench stance) ∧ d.Quiet

variable {stance : Stance Body} {s s' s'' : Session}

/-- Nothing is done quietly. -/
theorem Tends.refl (s : Session) : Tends stance s s := ⟨[], .refl, fun _ => ⟨rfl, rfl⟩⟩

/-- What is done quietly may go on quietly. -/
theorem Tends.trans (h : Tends stance s s') (h' : Tends stance s' s'') : Tends stance s s'' := by
  obtain ⟨d, hrun, hquiet⟩ := h
  obtain ⟨since, hrun', hquiet'⟩ := h'
  exact ⟨since ++ d, hrun.trans hrun', hquiet'.append hquiet⟩

/-- A step of the bench in which nothing starts. -/
theorem tends_of_step {d : Diary Body} (h : Step (s.bench stance) d (s'.bench stance))
    (hquiet : d.Quiet) : Tends stance s s' := ⟨d, h.run, hquiet⟩

/-- Stopping is closing the executor and dropping what waits. -/
theorem stop_tends (s : Session) : Tends stance s s.stop := by
  rw [Session.stop]
  split
  · have hhalt : Run (s.bench stance) _ _ := (Step.halt _).run
    exact ⟨_, hhalt.step (.drain rfl), fun _ => ⟨rfl, rfl⟩⟩
  · exact .refl s

/-- A command is done quietly, whoever gives it. -/
theorem perform_tends (s : Session) (c : Command) : Tends stance s (s.perform c).1 := by
  cases c with
  | add label delay commands =>
    rcases h : s.executor.add s.now delay ⟨label, commands⟩ with ⟨e, taken⟩
    simp only [perform, h]
    cases taken <;> exact tends_of_step (.add (Int.le_refl _) h) fun _ => ⟨rfl, rfl⟩
  | periodic label interval commands =>
    simp only [perform]
    cases h : s.executor.addPeriodic s.now interval ⟨label, commands⟩ with
    | error e => exact .refl s
    | ok r => exact tends_of_step (.register (Int.le_refl _) h) fun _ => ⟨rfl, rfl⟩
  | cancel label =>
    simp only [perform]
    cases s.handle? label with
    | none => exact .refl s
    | some chain => exact tends_of_step (.cancel _ chain) fun _ => ⟨rfl, rfl⟩
  | stop => exact s.stop_tends
  | spend ms => exact tends_of_step (.pass _ ms) fun _ => ⟨rfl, rfl⟩
  | isCancelled | dropHandle | isRunning | pending | describe | panic => exact .refl s

/-- The commands of a body are done quietly. -/
theorem run_tends (s : Session) (label : String) (commands : List Command) :
    Tends stance s (s.run label commands) := by
  fun_induction run s label commands with
  | case1 s => exact .refl s
  | case2 s message rest => exact .refl s
  | case3 s ms rest ih => exact (perform_tends s (.spend ms)).trans ih
  | case4 s c rest _ _ u reply hperform ih =>
    have htends : Tends stance s (s.perform c).1 := perform_tends s c
    rw [hperform] at htends
    exact htends.trans ih

/-- The worker of a session **fires**: it takes the next task and lets go of it, if its chain was
cancelled; otherwise the task starts at once, and nothing else does. -/
def Fires (s s' : Session) : Prop :=
  ∃ t e d, s.executor.next? s.now = some (t, e) ∧ Run (s.bench .idle) d (s'.bench .idle) ∧
    if s.executor.isOver t then d.Quiet else d.Shows t s.now

/-- One task of a session's worker is a run of its bench: the task is taken and fired, and its body
runs to its end. -/
theorem step?_fires (h : s.step? = some s') : s.Fires s' := by
  cases hnext : s.executor.next? s.now with
  | none => rw [step?, hnext] at h; cases h
  | some r =>
    obtain ⟨t, e⟩ := r
    obtain ⟨⟨e', now, handles, journal⟩, rfl, rfl, -, hstep⟩ := step?_eq hnext
    obtain rfl := Option.some.inj (h.symm.trans hstep)
    have htake := (Step.take rfl hnext : Step (s.bench .idle) _ _).run
    have hfires : Bench.Fires ⟨e', s.now, .holding t⟩ t := fires rfl
    refine ⟨t, e', ?_⟩
    rw [Bench.Fires] at hfires
    dsimp only at hfires ⊢
    rw [Executor.launch_eq]
    rw [isOver_of_next? hnext] at hfires ⊢
    cases hover : s.executor.isOver t with
    | true =>
      rw [hover, if_pos rfl] at hfires
      exact ⟨_, hnext, htake.trans hfires, fun _ => ⟨rfl, rfl⟩⟩
    | false =>
      rw [hover, if_neg Bool.false_ne_true] at hfires
      obtain ⟨d, hrun, hshows⟩ := hfires
      -- what the commands of the body do concerns no chain that is running
      obtain ⟨since, hbusy, hquiet⟩ := @run_tends .busy
        (note ⟨e'.rearm s.now t.work, s.now, handles, journal⟩ (.began t.work.body.label))
        t.work.body.label t.work.body.commands
      have hwhole := ((htake.trans hrun).trans hbusy).step (.finish rfl)
      rw [List.append_nil] at hwhole
      exact ⟨_, hnext, hwhole, hshows.append_quiet hquiet⟩

end Session

end Telecontrol
