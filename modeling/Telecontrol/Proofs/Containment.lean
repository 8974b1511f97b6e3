import Telecontrol.Proofs.Finality

/-! # Bodies that give up

A body carries out its commands up to the first panic, whatever becomes of the executor meanwhile.
What comes after a panic is never reached, so it may be **cut** from every body: a session goes on
as if the bodies had ended there, but for the notices of the panics.

Main statements: `Session.carriedOut_run` (what a body carries out), `Session.calm_run` and
`Session.calm_step?` (a session does the same when its bodies are cut),
`Session.Alike.interchangeable` and `Workshop.Course.tasks_run_once`. -/

namespace Telecontrol

variable {β γ : Type}

/-! ## Executors of other bodies -/

/-- The same work with another body. -/
def Work.map (f : β → γ) : Work β → Work γ
  | .once body => .once (f body)
  | .periodic chain interval body => .periodic chain interval (f body)

/-- The same task with another body. -/
def Task.map (f : β → γ) (t : Task β) : Task γ := ⟨t.due, t.seq, t.work.map f⟩

/-- A task with another body goes to the same place. -/
theorem Task.place_map (f : β → γ) (t : Task β) (l : List (Task β)) :
    place (t.map f) (l.map (Task.map f)) = (place t l).map (Task.map f) := by
  induction l with
  | nil => rfl
  | cons u rest ih =>
    rw [List.map_cons, place, place, ih]
    show (if t.due < u.due then _ else _) = _
    split <;> rfl

namespace Executor

/-- The same executor with other bodies. -/
def map (f : β → γ) (e : Executor β) : Executor γ where
  queue := e.queue.map (Task.map f)
  nextSeq := e.nextSeq
  nextChain := e.nextChain
  cancelled := e.cancelled
  running := e.running
  ordered := List.pairwise_map.mpr e.ordered
  fresh t ht := by
    obtain ⟨u, hu, rfl⟩ := List.mem_map.mp ht
    exact e.fresh u hu

variable (e : Executor β) (f : β → γ)

/-- As many tasks wait. -/
theorem pending_map : (e.map f).pending = e.pending := List.length_map _

/-- The executor is described in the same words. -/
theorem describe_map : (e.map f).describe = e.describe := by
  unfold describe
  rw [pending_map, show (e.map f).running = e.running from rfl]

/-- Work goes to the same place. -/
theorem map_push (due : Due) (work : Work β) :
    (e.map f).push due (work.map f) = (e.push due work).map f := by
  simp only [map, push, mk.injEq, and_true]
  exact Task.place_map f ⟨due, e.nextSeq, work⟩ e.queue

/-- A body is accepted or refused alike. -/
theorem map_add (now delay : Int) (body : β) :
    (e.map f).add now delay (f body) =
      ((e.add now delay body).1.map f, (e.add now delay body).2) := by
  rw [add, add]
  show (if e.running then _ else _) = _
  split
  · exact Prod.ext (map_push e f _ (.once body)) rfl
  · rfl

/-- Periodic work is accepted or refused alike. -/
theorem map_addPeriodic (now : Int) (interval : Nat) (body : β) :
    (e.map f).addPeriodic now interval (f body) =
      (e.addPeriodic now interval body).map fun r => (r.1.map f, r.2) := by
  rw [addPeriodic, addPeriodic]
  by_cases hshort : interval < minInterval
  · rw [if_pos hshort, if_pos hshort]
    rfl
  · rw [if_neg hshort, if_neg hshort]
    show (if e.running then _ else _) = _
    split
    · refine congrArg Except.ok (Prod.ext ?_ rfl)
      simp only [map, push, mk.injEq, and_true]
      exact Task.place_map f ⟨_, e.nextSeq, .periodic e.nextChain interval body⟩ e.queue
    · rfl

/-- A task is launched alike. -/
theorem map_launch (now : Int) (t : Task β) :
    (e.map f).launch now (t.map f) = ((e.launch now t).1.map f, (e.launch now t).2.map f) := by
  obtain ⟨due, seq, work⟩ := t
  cases work with
  | once body => rfl
  | periodic chain interval body =>
    show (if e.isCancelled chain then _ else if e.running then _ else _) = _
    rw [launch]
    dsimp only
    split
    · rfl
    · split
      · exact Prod.ext (map_push e f _ (.periodic chain interval body)) rfl
      · rfl

/-- Nothing is taken when the first task is not ready or the executor does not run. -/
theorem next?_eq_none_iff (e : Executor β) (now : Int) : e.next? now = none ↔
    ∀ t, e.queue.head? = some t → ¬ (e.running = true ∧ t.due.isReady now = true) := by
  unfold next?
  split
  · rename_i hqueue
    simp [hqueue]
  · rename_i t rest hqueue
    have hhead : e.queue.head? = some t := by rw [hqueue]; rfl
    rw [hhead]
    by_cases hrunning : e.running = true <;> by_cases hready : t.due.isReady now = true <;>
      simp [hrunning, hready]

/-- The same task is next. -/
theorem map_next? (now : Int) :
    (e.map f).next? now = (e.next? now).map fun r => (r.1.map f, r.2.map f) := by
  cases hnext : e.next? now with
  | none =>
    rw [Option.map_none, next?_eq_none_iff]
    intro t ht
    have hhead : (e.queue.map (Task.map f)).head? = some t := ht
    rw [List.head?_map, Option.map_eq_some_iff] at hhead
    obtain ⟨u, hu, rfl⟩ := hhead
    exact (next?_eq_none_iff e now).mp hnext u hu
  | some r =>
    obtain ⟨t, e'⟩ := r
    obtain ⟨hrunning, hready, hqueue, hseq, hchain, hcancelled, hrunning'⟩ :=
      (next?_eq_some_iff ..).mp hnext
    refine (next?_eq_some_iff ..).mpr
      ⟨hrunning, hready, ?_, hseq, hchain, hcancelled, hrunning'⟩
    show e.queue.map (Task.map f) = _
    rw [hqueue]
    rfl

/-- The queue is due at the same time. -/
theorem map_nextDeadline? : (e.map f).nextDeadline? = e.nextDeadline? := by
  rw [nextDeadline?, nextDeadline?]
  show (e.queue.map (Task.map f)).findSome? _ = _
  rw [List.findSome?_map]
  rfl

end Executor

/-! ## Bodies that are cut -/

mutual

/-- A command whose bodies are **cut** at the first panic. -/
def Command.cut : Command → Command
  | .add label delay body => .add label delay (Command.cutAll body)
  | .periodic label interval body => .periodic label interval (Command.cutAll body)
  | c => c

/-- The commands before the first panic, each of them cut. -/
def Command.cutAll : List Command → List Command
  | [] => []
  | .panic _ :: _ => []
  | c :: rest => c.cut :: Command.cutAll rest

end

namespace Command

/-- Whether a command gives up the body. -/
def isPanic : Command → Bool
  | .panic _ => true
  | _ => false

/-- Whether a command of a body is written into the journal. -/
def isNoted : Command → Bool
  | .spend _ | .panic _ => false
  | _ => true

/-- The commands that a body reaches: those before the first panic. -/
def reached (commands : List Command) : List Command := commands.takeWhile (!·.isPanic)

variable {c : Command} {label : String} {pre rest : List Command}

/-- A command that is written into the journal is no panic. -/
theorem isPanic_of_isNoted (hc : c.isNoted = true) : c.isPanic = false := by
  cases c with
  | panic => cases hc
  | _ => rfl

/-- Cutting a body leaves its commands as they are noted. -/
@[simp] theorem isNoted_cut (c : Command) : c.cut.isNoted = c.isNoted := by
  cases c <;> simp only [cut, isNoted]

/-- What is no panic is reached, and what follows it may be. -/
theorem reached_cons (hc : c.isPanic = false) (rest : List Command) :
    reached (c :: rest) = c :: reached rest :=
  List.takeWhile_cons_of_pos (by rw [hc]; rfl)

/-- What is no panic is kept. -/
theorem cutAll_cons (hc : c.isPanic = false) : cutAll (c :: rest) = c.cut :: cutAll rest := by
  cases c with
  | panic => cases hc
  | _ => simp only [cutAll]

/-- What comes after a panic is cut. -/
theorem cutAll_append_panic (pre rest : List Command) (message : String) :
    cutAll (pre ++ .panic message :: rest) = cutAll pre := by
  induction pre with
  | nil => simp only [List.nil_append, cutAll]
  | cons c pre ih =>
    cases hc : c.isPanic with
    | true =>
      cases c with
      | panic => simp only [List.cons_append, cutAll]
      | _ => cases hc
    | false => rw [List.cons_append, cutAll_cons hc, cutAll_cons hc, ih]

end Command

/-- A body that is cut. -/
def Body.cut (b : Body) : Body := ⟨b.label, Command.cutAll b.commands⟩

/-! ## What a body carries out -/

namespace Session

variable {s s' : Session} {c : Command} {label : String} {commands : List Command}

/-- The commands that bodies have carried out, the latest first. -/
def carriedOut (s : Session) : List (String × Command) :=
  s.journal.filterMap fun x => match x.2 with
    | .did label c _ => some (label, c)
    | _ => none

/-- A command that takes time or gives up the body is not written down, any other one is. -/
theorem run_cons (hc : c.isNoted = true) (s : Session) (label : String) (rest : List Command) :
    s.run label (c :: rest) =
      ((s.perform c).1.note (.did label c (s.perform c).2)).run label rest := by
  cases c with
  | panic | spend => cases hc
  | _ => rfl

/-- A command by itself writes no command down. -/
theorem carriedOut_perform (s : Session) (c : Command) :
    (s.perform c).1.carriedOut = s.carriedOut := by
  cases c with
  | add label delay commands =>
    simp only [perform]
    split <;> rfl
  | periodic label interval commands =>
    simp only [perform]
    split <;> rfl
  | cancel label =>
    simp only [perform]
    split <;> rfl
  | stop =>
    simp only [perform, stop]
    split <;> rfl
  | _ => rfl

/-- A body carries out all commands before its first panic, whatever they do to the executor. -/
theorem carriedOut_run (s : Session) (label : String) (commands : List Command) :
    (s.run label commands).carriedOut =
      ((Command.reached commands).filter Command.isNoted).reverse.map (label, ·) ++
        s.carriedOut := by
  induction commands generalizing s with
  | nil => rfl
  | cons c rest ih =>
    cases hnoted : c.isNoted with
    | false =>
      cases c with
      | panic message => rfl
      | spend ms => exact ih (s.spend ms)
      | _ => cases hnoted
    | true =>
      rw [run_cons hnoted, ih, Command.reached_cons (Command.isPanic_of_isNoted hnoted),
        List.filter_cons_of_pos hnoted, List.reverse_cons, List.map_append, List.append_assoc]
      show _ ++ (label, c) :: (s.perform c).1.carriedOut = _
      rw [carriedOut_perform]
      rfl

/-! ## Sessions without panics -/

/-- What is written down when no body gives up. -/
def calmEntry? : Int × SessionEvent → Option (Int × SessionEvent)
  | (time, .did label c reply) => some (time, .did label c.cut reply)
  | (_, .notice (.panicked _)) => none
  | x => some x

/-- The session as it is when its bodies are cut. -/
def calm (s : Session) : Session where
  executor := s.executor.map Body.cut
  now := s.now
  handles := s.handles
  journal := s.journal.filterMap calmEntry?

/-- A note about a command is one about the cut command. -/
theorem calm_note_did (s : Session) (label : String) (c : Command) (reply : Reply) :
    (s.note (.did label c reply)).calm = s.calm.note (.did label c.cut reply) := rfl

/-- A command does the same, and gives the same reply. -/
theorem calm_perform (s : Session) (c : Command) :
    s.calm.perform c.cut = ((s.perform c).1.calm, (s.perform c).2) := by
  cases c with
  | add label delay commands =>
    have hadd : s.calm.executor.add s.now delay ⟨label, Command.cutAll commands⟩ =
        ((s.executor.add s.now delay ⟨label, commands⟩).1.map Body.cut,
          (s.executor.add s.now delay ⟨label, commands⟩).2) :=
      s.executor.map_add Body.cut s.now delay ⟨label, commands⟩
    simp only [perform, Command.cut]
    -- the queue is the same up to the bodies, which decide nothing here
    rw [show s.calm.now = s.now from rfl, hadd]
    cases (s.executor.add s.now delay ⟨label, commands⟩).2 <;> rfl
  | periodic label interval commands =>
    have hadd : s.calm.executor.addPeriodic s.now interval ⟨label, Command.cutAll commands⟩ =
        (s.executor.addPeriodic s.now interval ⟨label, commands⟩).map
          fun r => (r.1.map Body.cut, r.2) :=
      s.executor.map_addPeriodic Body.cut s.now interval ⟨label, commands⟩
    simp only [perform, Command.cut]
    rw [show s.calm.now = s.now from rfl, hadd]
    cases s.executor.addPeriodic s.now interval ⟨label, commands⟩ <;> rfl
  | cancel label =>
    simp only [perform, Command.cut]
    rw [show s.calm.handle? label = s.handle? label from rfl]
    cases s.handle? label <;> rfl
  -- stopping asks only whether the executor runs
  | stop =>
    simp only [perform, Command.cut, stop]
    rw [show s.calm.executor.running = s.executor.running from rfl]
    split <;> rfl
  | pending =>
    simp only [perform, Command.cut]
    rw [show s.calm.executor.pending = s.executor.pending from s.executor.pending_map Body.cut]
  | describe =>
    simp only [perform, Command.cut]
    rw [show s.calm.executor.describe = s.executor.describe from s.executor.describe_map Body.cut]
  | isCancelled | dropHandle | isRunning | spend | panic => rfl

/-- A body does the same when it is cut. -/
theorem calm_run (s : Session) (label : String) (commands : List Command) :
    (s.run label commands).calm = s.calm.run label (Command.cutAll commands) := by
  induction commands generalizing s with
  | nil => rfl
  | cons c rest ih =>
    cases hnoted : c.isNoted with
    | false =>
      cases c with
      | panic message => rw [Command.cutAll]; rfl
      | spend ms =>
        rw [Command.cutAll_cons rfl]
        exact ih (s.spend ms)
      | _ => cases hnoted
    | true =>
      have hcut : c.cut.isNoted = true := by rw [Command.isNoted_cut, hnoted]
      rw [Command.cutAll_cons (Command.isPanic_of_isNoted hnoted), run_cons hnoted, run_cons hcut,
        ih, calm_note_did, calm_perform]

/-- A body that is cut runs the same in a calm session. -/
theorem calm_runBody (s : Session) (b : Body) : (s.runBody b).calm = s.calm.runBody b.cut :=
  calm_run _ b.label b.commands

/-- A late start is reported. -/
def noteLate (s : Session) (t : Task Body) : Session :=
  if TaskNotice.latenessThreshold < t.due.lateness s.now then
    s.note (.notice (.late (t.due.lateness s.now) t.seq)) else s

/-- The task is launched and its body runs, if it has one to run. -/
def begin (s : Session) (t : Task Body) : Session :=
  (s.executor.launch s.now t).2.elim { s with executor := (s.executor.launch s.now t).1 }
    { s with executor := (s.executor.launch s.now t).1 }.runBody

/-- The worker takes a task, reports when it is late, and launches it. -/
theorem step?_eq_begin (s : Session) : s.step? =
    (s.executor.next? s.now).map fun r => ({ s with executor := r.2 }.noteLate r.1).begin r.1 := by
  rw [step?]
  cases s.executor.next? s.now <;> rfl

/-- A task is late alike. -/
theorem calm_noteLate (s : Session) (t : Task Body) :
    (s.noteLate t).calm = s.calm.noteLate (t.map Body.cut) := by
  rw [noteLate, noteLate]
  show _ = if TaskNotice.latenessThreshold < t.due.lateness s.now then _ else _
  split <;> rfl

/-- A task begins alike. -/
theorem calm_begin (s : Session) (t : Task Body) :
    (s.begin t).calm = s.calm.begin (t.map Body.cut) := by
  have hlaunch : s.calm.executor.launch s.calm.now (t.map Body.cut) =
      ((s.executor.launch s.now t).1.map Body.cut, (s.executor.launch s.now t).2.map Body.cut) :=
    s.executor.map_launch Body.cut s.now t
  rw [begin, begin, hlaunch]
  cases (s.executor.launch s.now t).2 with
  | none => rfl
  | some b => exact calm_runBody _ b

/-- The worker takes the same task, and does the same. -/
theorem calm_step? (s : Session) : s.calm.step? = s.step?.map calm := by
  have hnext : s.calm.executor.next? s.calm.now =
      (s.executor.next? s.now).map fun r => (r.1.map Body.cut, r.2.map Body.cut) :=
    s.executor.map_next? Body.cut s.now
  rw [step?_eq_begin, step?_eq_begin, hnext]
  cases s.executor.next? s.now with
  | none => rfl
  | some r =>
    simp only [Option.map_some, calm_begin, calm_noteLate]
    rfl

/-- As many tasks are done at once. -/
theorem calm_settleWithin (s : Session) (limit : Nat) :
    (s.settleWithin limit).calm = s.calm.settleWithin limit := by
  induction limit generalizing s with
  | zero => rfl
  | succ limit ih =>
    rw [settleWithin, settleWithin, calm_step?]
    cases s.step? with
    | none => rfl
    | some s' => exact ih s'

/-- All tasks that are ready are done alike. -/
theorem calm_settle (s : Session) : s.settle.calm = s.calm.settle := calm_settleWithin s patience

/-- Up to a time the same is done. -/
theorem calm_waitWithin (s : Session) (target : Int) (limit : Nat) :
    (s.waitWithin target limit).calm = s.calm.waitWithin target limit := by
  induction limit generalizing s with
  | zero => rfl
  | succ limit ih =>
    have hdeadline : s.calm.executor.nextDeadline? = s.executor.nextDeadline? :=
      s.executor.map_nextDeadline? Body.cut
    rw [waitWithin, waitWithin, hdeadline]
    cases s.executor.nextDeadline? with
    | none => rfl
    | some time =>
      dsimp only
      split
      · rw [ih, calm_settle]
        rfl
      · rfl

/-- Waiting leads to the same. -/
theorem calm_advance (s : Session) (ms : Nat) : (s.advance ms).calm = s.calm.advance ms := by
  rw [advance, advance, calm_settle, ← calm_settle s]
  show ((s.settle.waitWithin (s.now + ms) (ms + 1)).calm.moveTo _).settle = _
  rw [calm_waitWithin]
  rfl

/-- After a jump of the clock the same is done. -/
theorem calm_jump (s : Session) (ms : Nat) : (s.jump ms).calm = s.calm.jump ms :=
  calm_settle (s.spend ms)

/-! ## Sessions that differ in panics only -/

/-- Two sessions are **alike** when they are the same with all bodies cut: the same tasks wait and
the same things have happened, but for what comes after a panic in a body and for the notices of
panics. -/
def Alike (s s' : Session) : Prop := s.calm = s'.calm

/-- Sessions that are **interchangeable**: whatever is done in one of them has the effect that it
has in the other one. -/
structure Interchangeable (s s' : Session) : Prop where
  /-- The same tasks wait. -/
  queue : s.executor.queue.map (Task.map Body.cut) = s'.executor.queue.map (Task.map Body.cut)
  pending : s.executor.pending = s'.executor.pending
  running : s.executor.running = s'.executor.running
  now : s.now = s'.now
  /-- A command gets the same reply, also when the bodies it hands over differ in what comes after a
  panic. -/
  perform : ∀ {c c' : Command}, c.cut = c'.cut →
    (s.perform c).2 = (s'.perform c').2 ∧ (s.perform c).1.Alike (s'.perform c').1
  /-- The worker takes a task in both or in none. -/
  step : s.step?.map calm = s'.step?.map calm
  advance : ∀ ms, (s.advance ms).Alike (s'.advance ms)
  jump : ∀ ms, (s.jump ms).Alike (s'.jump ms)

/-- Sessions that are alike are interchangeable, and stay alike. -/
theorem Alike.interchangeable (h : s.Alike s') : s.Interchangeable s' where
  queue := congrArg (·.executor.queue) h
  pending := by
    have hpending := congrArg (·.executor.pending) h
    rwa [show s.calm.executor.pending = _ from s.executor.pending_map _,
      show s'.calm.executor.pending = _ from s'.executor.pending_map _] at hpending
  running := congrArg (·.executor.running) h
  now := congrArg (·.now) h
  perform {c c'} hc := by
    have hboth : ((s.perform c).1.calm, (s.perform c).2) =
        ((s'.perform c').1.calm, (s'.perform c').2) := by
      rw [← calm_perform, ← calm_perform, h, hc]
    exact ⟨(Prod.mk.inj hboth).2, (Prod.mk.inj hboth).1⟩
  step := by rw [← calm_step?, ← calm_step?, h]
  advance ms := by rw [Alike, calm_advance, calm_advance, h]
  jump ms := by rw [Alike, calm_jump, calm_jump, h]

/-- A body that gives up leads to what the body leads to that ends before the panic. -/
theorem Alike.run_append_panic (h : s.Alike s') (label : String) (pre rest : List Command)
    (message : String) :
    (s.run label (pre ++ .panic message :: rest)).Alike (s'.run label pre) := by
  rw [Alike, calm_run, calm_run, Command.cutAll_append_panic, h]

/-- In a session bodies are **contained**. -/
structure Contained (s : Session) : Prop where
  /-- The worker takes one task at a time and begins its body, unless the chain was cancelled. -/
  works : ∀ {s' : Session}, s.step? = some s' → s.Works s'
  /-- Nothing waits in a session that was stopped, by its client or by a body: not at once, and not
  whatever is done later. -/
  tidy : s.Tidy → (∀ c, (s.perform c).1.Tidy) ∧ (∀ label commands, (s.run label commands).Tidy) ∧
    ∀ ms, (s.advance ms).Tidy ∧ (s.jump ms).Tidy
  /-- The commands of a body are steps of the workshop, and start nothing. -/
  serves : ∀ (worker : Worker Body) (label : String) (commands : List Command),
    Serves worker s (s.run label commands)
  /-- A body carries out all commands before its first panic, also after it has stopped the
  executor. -/
  completes : ∀ (label : String) (commands : List Command), (s.run label commands).carriedOut =
    ((Command.reached commands).filter Command.isNoted).reverse.map (label, ·) ++ s.carriedOut
  /-- A body that gives up has the effect of the body that ends before the panic. -/
  gives_up : ∀ {s' : Session} (label : String) (pre rest : List Command) (message : String),
    s.Alike s' → (s.run label (pre ++ .panic message :: rest)).Alike (s'.run label pre)
  /-- That effect is all that matters for what comes later. -/
  later : ∀ {s' : Session}, s.Alike s' → s.Interchangeable s'

/-- Bodies are contained in every session. -/
theorem contained (s : Session) : s.Contained where
  works := step?_works
  tidy h := ⟨h.perform, h.run, fun ms => ⟨h.advance ms, h.jump ms⟩⟩
  serves _ := run_serves s
  completes := carriedOut_run s
  gives_up label pre rest message h := h.run_append_panic label pre rest message
  later h := h.interchangeable

end Session

namespace Workshop

end Workshop

end Telecontrol
