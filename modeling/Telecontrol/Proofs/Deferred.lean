import Telecontrol.Proofs.Chronicle

/-! # Work that waits

What a move does to the queue of a server. A release waits because an execute was concluded, and it
waits until the worker takes it or the executor stops. Every selection that expires puts one task
into the queue that tells its holder, and taking that task is telling the holder: the books of
`Server.Requeues` balance.

Main statements: `Server.Requeues` (what is known of the tasks before and after a deed) and
`Move.requeues` (every move requeues). -/

namespace Telecontrol

/-! ## Jobs that concern selections -/

/-- Whether a job releases the selection of an executed command. -/
def Job.isRelease : Job → Bool
  | .release .. => true
  | _ => false

/-- Whether a job tells the holder of a selection that it has expired. -/
def Job.tells (g : Selection) : Job → Bool
  | .unselect held => held == g
  | _ => false

/-- Whether a deed tells the holder of a selection that it has expired. -/
def Deed.tells (g : Selection) : Deed → Bool
  | .work (some job) => job.tells g
  | _ => false

/-- Deeds that take no task tell nobody. -/
theorem Deed.tells_of_isIdle {d : Deed} (h : d.IsIdle) (g : Selection) : d.tells g = false := by
  cases d with
  | work => cases h
  | _ => rfl

/-- Plain jobs release nothing. -/
theorem Job.isRelease_of_isPlain {job : Job} (h : job.isPlain = true) : job.isRelease = false := by
  cases job with
  | release => cases h
  | _ => rfl

/-- Plain jobs tell nobody that a selection has expired. -/
theorem Job.tells_of_isPlain {job : Job} (h : job.isPlain = true) (g : Selection) :
    job.tells g = false := by
  cases job with
  | unselect => cases h
  | _ => rfl

namespace Executor

/-- Launching a task puts nothing into the queue but, for a periodic one, its next run. -/
theorem launch_perm (e : Executor Job) (now : Int) {task : Task Job} (h : task.work.IsRoutine) :
    ∃ again : List (Task Job), (e.launch now task).1.queue.Perm (again ++ e.queue) ∧
      ∀ t ∈ again, ∃ duty, t.work.body = .duty duty := by
  obtain ⟨due, seq, work⟩ := task
  cases work with
  | once body => exact ⟨[], .refl _, fun _ h => absurd h List.not_mem_nil⟩
  | periodic chain interval body =>
    obtain ⟨duty, rfl⟩ := h
    rw [launch]
    dsimp only
    split
    · exact ⟨[], .refl _, fun _ h => absurd h List.not_mem_nil⟩
    · split
      · refine ⟨[⟨.timed (now + interval), e.nextSeq, .periodic chain interval (.duty duty)⟩],
          Task.place_perm .., fun t ht => ⟨duty, ?_⟩⟩
        rw [List.mem_singleton.mp ht]
        rfl
      · exact ⟨[], .refl _, fun _ h => absurd h List.not_mem_nil⟩

/-- The job of a task that is launched tells whom its work tells. -/
theorem tells_launch (e : Executor Job) (now : Int) {task : Task Job} (h : task.work.IsRoutine)
    (g : Selection) :
    (Deed.work (e.launch now task).2).tells g = task.work.body.tells g := by
  obtain ⟨due, seq, work⟩ := task
  cases work with
  | once body => rfl
  | periodic chain interval body =>
    obtain ⟨duty, rfl⟩ := h
    cases hjob : (e.launch now ⟨due, seq, .periodic chain interval (.duty duty)⟩).2 with
    | none => rfl
    | some job =>
      rw [← body_of_launch hjob]
      rfl

end Executor

/-! ## The queue across a move -/

/-- The entries of a journal that let a selection expire. -/
def expiries (g : Selection) (journal : List Entry) : Nat :=
  journal.countP fun e => e.event.isExpiryOf g

/-- The expiries in two parts of a journal are those in each. -/
theorem expiries_append (g : Selection) (newer older : List Entry) :
    expiries g (newer ++ older) = expiries g newer + expiries g older := List.countP_append

namespace Server

/-- The tasks that wait to tell the holder of a selection that it has expired. -/
def awaiting (s : Server) (g : Selection) : Nat :=
  s.executor.queue.countP fun t => t.work.body.tells g

/-- A server concludes an execute and **defers** a task, which releases the selection that is
stored. -/
def Defers (s s' : Server) (t : Task Job) : Prop :=
  ∃ (c : ConnectionId) (m : Message) (g : Selection), s.HasConfirmed c m ∧
    s.selections.find? m.station m.address = some g ∧
    s'.journal = ⟨s.now, .sent (.returned c m.termination)⟩ :: s.journal ∧
    t.due = .timed (s.now + releaseDelay) ∧ t.work = .once g.releaseJob

/-- A server **takes** a task and undertakes its job. -/
def Takes (s s' : Server) (t : Task Job) : Prop :=
  ∃ e, s.executor.next? s.now = some (t, e) ∧
    s' = { s with executor := (e.launch s.now t).1 }.undertake (e.launch s.now t).2

/-- A server **requeues** in a deed: what is known of its tasks before and after. -/
structure Requeues (d : Deed) (s s' : Server) : Prop where
  /-- A stopped executor stays stopped. -/
  running : s'.executor.running = true → s.executor.running = true
  /-- A release that waits has waited before or is deferred by the end of an execute. -/
  release : ∀ t ∈ s'.executor.queue, t.work.body.isRelease = true →
    t ∈ s.executor.queue ∨ s.Defers s' t
  /-- A task waits until it is taken. -/
  stays : ∀ t ∈ s.executor.queue, s'.executor.running = true →
    t ∈ s'.executor.queue ∨ s.Takes s' t
  /-- Whoever is told or waits to be told had a selection that expired. -/
  told_le : ∀ g, s'.awaiting g + (d.tells g).toNat + expiries g s.journal ≤
    s.awaiting g + expiries g s'.journal
  /-- While the executor runs, everybody whose selection expires is told or waits to be told. -/
  told_eq : s'.executor.running = true → ∀ g,
    s'.awaiting g + (d.tells g).toNat + expiries g s.journal =
      s.awaiting g + expiries g s'.journal

variable {d : Deed} {s s' : Server}

/-- Only the sweep lets selections expire. -/
theorem Records.expiries_eq {events : List Event} (h : s.Records d s' events)
    (hd : d ≠ .work (some (.duty .sweep))) (g : Selection) :
    expiries g s'.journal = expiries g s.journal := by
  have hnone : (events.map (Entry.mk s.now)).countP (fun e => e.event.isExpiryOf g) = 0 := by
    rw [List.countP_map]
    exact Event.countP_isExpiryOf_eq_zero fun he => hd (h.swept he)
  rw [h.journal, expiries_append, expiries, hnone, Nat.zero_add]

/-- Tasks put into the queue while none is taken and no selection expires. -/
theorem Requeues.of_perm (hd : d.IsIdle)
    (hrun : s'.executor.running = true → s.executor.running = true) (added : List (Task Job))
    (hperm : s'.executor.queue.Perm (added ++ s.executor.queue))
    (htells : ∀ t ∈ added, ∀ g, t.work.body.tells g = false)
    (hrelease : ∀ t ∈ added, t.work.body.isRelease = true → s.Defers s' t)
    (hexp : ∀ g, expiries g s'.journal = expiries g s.journal) : s.Requeues d s' := by
  have heq (g : Selection) : s'.awaiting g + (d.tells g).toNat + expiries g s.journal =
      s.awaiting g + expiries g s'.journal := by
    have hadded : added.countP (fun t => t.work.body.tells g) = 0 :=
      List.countP_eq_zero.mpr fun t ht h => by rw [htells t ht g] at h; cases h
    rw [awaiting, hperm.countP_eq, List.countP_append, hadded, Nat.zero_add,
      Deed.tells_of_isIdle hd, hexp]
    rfl
  refine ⟨hrun, fun t ht hrel => ?_, fun t ht _ => ?_, fun g => Nat.le_of_eq (heq g),
    fun _ => heq⟩
  · rcases List.mem_append.mp (hperm.mem_iff.mp ht) with ht | ht
    · exact .inr (hrelease t ht hrel)
    · exact .inl ht
  · exact .inl (hperm.mem_iff.mpr (List.mem_append_right _ ht))

/-- A task taken from the queue, and the tasks that tell whose selections expire. -/
theorem Requeues.of_take {task : Task Job} {e : Executor Job}
    (h : s.executor.next? s.now = some (task, e)) (hroutine : task.work.IsRoutine)
    (hs' : s' = { s with executor := (e.launch s.now task).1 }.undertake (e.launch s.now task).2)
    (told : List (Task Job))
    (hperm : s'.executor.queue.Perm (told ++ (e.launch s.now task).1.queue))
    (hrelease : ∀ t ∈ told, t.work.body.isRelease = false)
    (htold : ∀ g, told.countP (fun t => t.work.body.tells g) + expiries g s.journal =
      expiries g s'.journal) : s.Requeues (.work (e.launch s.now task).2) s' := by
  obtain ⟨hrun, -, hqueue, -⟩ := (Executor.next?_eq_some_iff ..).mp h
  obtain ⟨again, hlaunch, hagain⟩ := Executor.launch_perm e s.now hroutine
  have hall : s'.executor.queue.Perm (told ++ (again ++ e.queue)) :=
    hperm.trans (hlaunch.append_left told)
  have heq (g : Selection) : s'.awaiting g + ((Deed.work (e.launch s.now task).2).tells g).toNat +
      expiries g s.journal = s.awaiting g + expiries g s'.journal := by
    -- the next run of a duty tells nobody
    have hnone : again.countP (fun t => t.work.body.tells g) = 0 :=
      List.countP_eq_zero.mpr fun t ht htells => by
        obtain ⟨duty, hduty⟩ := hagain t ht
        rw [hduty] at htells
        cases htells
    have hafter : s'.awaiting g = told.countP (fun t => t.work.body.tells g) +
        e.queue.countP (fun t => t.work.body.tells g) := by
      rw [awaiting, hall.countP_eq, List.countP_append, List.countP_append, hnone, Nat.zero_add]
    have hbefore : s.awaiting g = e.queue.countP (fun t => t.work.body.tells g) +
        (task.work.body.tells g).toNat := by
      rw [awaiting, hqueue, List.countP_cons]
      cases task.work.body.tells g <;> rfl
    rw [Executor.tells_launch e s.now hroutine, hafter, hbefore, ← htold g]
    omega
  refine ⟨fun _ => hrun, fun t ht hrel => ?_, fun t ht _ => ?_, fun g => Nat.le_of_eq (heq g),
    fun _ => heq⟩
  -- a release in the queue is none of the new tasks
  · rcases List.mem_append.mp (hall.mem_iff.mp ht) with ht | ht
    · rw [hrelease t ht] at hrel
      cases hrel
    · rcases List.mem_append.mp ht with ht | ht
      · obtain ⟨duty, hduty⟩ := hagain t ht
        rw [hduty] at hrel
        cases hrel
      · exact .inl (hqueue ▸ List.mem_cons_of_mem _ ht)
  -- a task that waited is the one taken or still waits
  · rw [hqueue] at ht
    rcases List.mem_cons.mp ht with rfl | ht
    · exact .inr ⟨e, h, hs'⟩
    · exact .inl (hall.mem_iff.mpr (List.mem_append_right _ (List.mem_append_right _ ht)))

/-- What leaves the queue as it is, while no selection expires. -/
theorem requeues_of_eq (hd : d.IsIdle) (hq : s'.executor.queue = s.executor.queue)
    (hrun : s'.executor.running = s.executor.running)
    (hexp : ∀ g, expiries g s'.journal = expiries g s.journal) : s.Requeues d s' :=
  .of_perm hd (fun h => hrun.symm.trans h) [] (.of_eq hq) (fun _ h => absurd h List.not_mem_nil)
    (fun _ h => absurd h List.not_mem_nil) hexp

/-- A plain job that is deferred joins the queue. -/
theorem requeues_defer (hd : d.IsIdle) (delay : Int) {job : Job} (hjob : job.isPlain = true)
    (hexp : ∀ g, expiries g (s.defer delay job).journal = expiries g s.journal) :
    s.Requeues d (s.defer delay job) := by
  rw [defer_eq] at hexp ⊢
  by_cases hrun : s.executor.running = true
  · rw [if_pos hrun] at hexp ⊢
    refine .of_perm hd (fun _ => hrun) _ (Executor.push_perm ..) (fun t ht g => ?_)
      (fun t ht hrel => ?_) hexp
    · rw [List.mem_singleton.mp ht]
      exact Job.tells_of_isPlain hjob g
    · rw [List.mem_singleton.mp ht] at hrel
      have hjobrel : job.isRelease = true := hrel
      rw [Job.isRelease_of_isPlain hjob] at hjobrel
      cases hjobrel
  · -- a stopped executor takes no work
    rw [if_neg hrun] at hexp ⊢
    exact requeues_of_eq hd rfl rfl hexp

/-- An execute that is concluded defers the release of the selection that is stored. -/
theorem requeues_concludeExecute (hkeyed : s.selections.Keyed) {c : ConnectionId} {m : Message}
    (hconf : s.HasConfirmed c m) (hd : d.IsIdle)
    (hexp : ∀ g, expiries g (s.concludeExecute c m).journal = expiries g s.journal) :
    s.Requeues d (s.concludeExecute c m) := by
  rw [concludeExecute_eq hconf.station] at hexp ⊢
  cases hheld : s.selections.find? m.station m.address with
  | none =>
    rw [hheld] at hexp
    exact requeues_of_eq hd rfl rfl hexp
  | some held =>
    rw [hheld] at hexp
    dsimp only at hexp ⊢
    rw [defer_eq] at hexp ⊢
    split at hexp
    · rename_i hrun
      rw [if_pos hrun]
      obtain ⟨hs, ha⟩ : held.station = m.station ∧ held.address = m.address :=
        Prod.mk.inj (hkeyed hheld)
      refine .of_perm hd (fun _ => hrun) _ (Executor.push_perm ..) (fun t ht g => ?_)
        (fun t ht _ => ?_) hexp
      · rw [List.mem_singleton.mp ht]
        rfl
      · -- the one task that is new is the release
        refine ⟨c, m, held, hconf, hheld, rfl, ?_⟩
        rw [List.mem_singleton.mp ht, Selection.releaseJob, hs, ha]
        exact ⟨rfl, rfl⟩
    · rename_i hrun
      rw [if_neg hrun]
      exact requeues_of_eq hd rfl rfl hexp

/-- Starting puts the first runs of the duties into the queue. -/
theorem requeues_start (hd : d.IsIdle) (h : s.start = .ok s')
    (hexp : ∀ g, expiries g s'.journal = expiries g s.journal) : s.Requeues d s' := by
  obtain rfl | ⟨e₁, e₂, c₁, c₂, h₁, h₂, rfl⟩ := start_cases h
  · exact requeues_of_eq hd rfl rfl hexp
  · obtain ⟨hrun₁, hq₁⟩ := Executor.queue_addPeriodic h₁
    obtain ⟨hrun₂, hq₂⟩ := Executor.queue_addPeriodic h₂
    let t₁ : Task Job := ⟨.timed (s.now + s.options.tickRate), s.executor.nextSeq,
      .periodic c₁ s.options.tickRate (.duty .inventory)⟩
    let t₂ : Task Job := ⟨.timed (s.now + s.options.tickRate), e₁.nextSeq,
      .periodic c₂ s.options.tickRate (.duty .sweep)⟩
    -- duties neither tell nor release
    have hduty {t : Task Job} (ht : t ∈ [t₂, t₁]) : ∃ duty, t.work.body = .duty duty := by
      simp only [List.mem_cons, List.not_mem_nil, or_false] at ht
      rcases ht with rfl | rfl
      · exact ⟨_, rfl⟩
      · exact ⟨_, rfl⟩
    refine .of_perm hd (fun h => hrun₁.symm.trans (hrun₂.symm.trans h)) [t₂, t₁]
      ?_ (fun t ht g => ?_) (fun t ht hrel => ?_) hexp
    · show e₂.queue.Perm _
      rw [hq₂, hq₁]
      exact (Task.place_perm t₂ _).trans ((Task.place_perm t₁ _).cons t₂)
    · obtain ⟨duty, hbody⟩ := hduty ht
      rw [hbody]
      rfl
    · obtain ⟨duty, hbody⟩ := hduty ht
      rw [hbody] at hrel
      cases hrel

/-- Stopping the executor loses the tasks that wait, but tells nobody and lets nothing expire. -/
theorem requeues_stopExecutor (hd : d.IsIdle)
    (hexp : ∀ g, expiries g s.stopExecutor.journal = expiries g s.journal) :
    s.Requeues d s.stopExecutor := by
  rw [stopExecutor] at hexp ⊢
  by_cases hrun : s.executor.running = true
  · rw [if_pos hrun] at hexp ⊢
    refine ⟨fun _ => hrun, fun t ht => (by cases ht), fun _ _ h => (by cases h), fun g => ?_,
      fun h => (by cases h)⟩
    rw [hexp g, Deed.tells_of_isIdle hd]
    exact Nat.add_le_add_right (Nat.zero_le _) _
  · rw [if_neg hrun] at hexp ⊢
    exact requeues_of_eq hd rfl rfl hexp

/-- The sweep puts one task into the queue for each selection that expires. -/
theorem requeues_sweep {task : Task Job} {e : Executor Job}
    (h : s.executor.next? s.now = some (task, e)) (hroutine : task.work.IsRoutine)
    (hjob : (e.launch s.now task).2 = some (.duty .sweep)) :
    s.Requeues (.work (e.launch s.now task).2)
      ({ s with executor := (e.launch s.now task).1 }.undertake (e.launch s.now task).2) := by
  obtain ⟨hrun, -, -, -, -, -, he⟩ := (Executor.next?_eq_some_iff ..).mp h
  let u : Server := { s with executor := (e.launch s.now task).1 }
  have hurun : u.executor.running = true := (Executor.running_launch ..).trans (he.trans hrun)
  obtain ⟨e', tasks, hdrop, -, hperm, hworks⟩ := dropExpired_eq hurun
  have hs' : u.undertake (e.launch s.now task).2 = u.dropExpired := by rw [hjob]; rfl
  have hbody {t : Task Job} (ht : t ∈ tasks) : ∃ held, t.work = .once (.unselect held) := by
    obtain ⟨held, -, hheld⟩ := List.mem_map.mp (hworks ▸ List.mem_map_of_mem ht)
    exact ⟨held, hheld.symm⟩
  refine .of_take h hroutine rfl tasks ?_ (fun t ht => ?_) fun g => ?_
  · rw [hs', hdrop]
    exact hperm
  · obtain ⟨held, hheld⟩ := hbody ht
    rw [hheld]
    rfl
  · -- the tasks and the entries are made of the same list of selections
    have hcount : tasks.countP (fun t => t.work.body.tells g) =
        (tasks.map (·.work)).countP (fun w => w.body.tells g) := by
      rw [List.countP_map]
      rfl
    rw [hs', hdrop, hcount, hworks, expiries_append]
    refine congrArg (· + expiries g s.journal) ?_
    rw [expiries, List.countP_map, List.countP_map]
    rfl

/-- Every job but the sweep puts nothing into the queue when it is undertaken. -/
theorem queue_undertake (s : Server) {job : Option Job} (h : job ≠ some (.duty .sweep)) :
    (s.undertake job).executor.queue = s.executor.queue := by
  unfold undertake
  split
  · rw [executor_releaseExecuted]
  · rfl
  · exact absurd rfl h
  · rfl

end Server

/-- What every move does to the queue. -/
theorem Move.requeues {d : Deed} {s s' : Server} (h : Move d s s') (hs : s.WellFormed)
    (hkeyed : s.selections.Keyed) : s.Requeues d s' := by
  -- only the sweep lets selections expire
  have hexp (hd : d ≠ .work (some (.duty .sweep))) (g : Selection) :
      expiries g s'.journal = expiries g s.journal := by
    obtain ⟨events, hrec, -⟩ := h.history hkeyed
    exact hrec.expiries_eq hd g
  cases h with
  | note | handOver | write | plant | attach | callbacks | pass | grant | apply =>
    exact Server.requeues_of_eq trivial rfl rfl (hexp (by simp))
  | defer _ delay hjob =>
    exact Server.requeues_defer (d := .plain) trivial delay hjob (hexp (by simp))
  | connection =>
    exact Server.requeues_of_eq trivial (by rw [Server.executor_onConnectionEvent])
      (by rw [Server.executor_onConnectionEvent]) (hexp (by simp))
  | deactivate =>
    exact Server.requeues_of_eq trivial (by rw [Server.executor_deactivate])
      (by rw [Server.executor_deactivate]) (hexp (by simp))
  | start h => exact Server.requeues_start trivial h (hexp (by simp))
  | stop =>
    refine Server.requeues_of_eq trivial (Server.queue_stop s) ?_ (hexp (by simp))
    cases hrun : s.running with
    | false => rw [Server.stop_of_not_running hrun]
    | true => rw [Server.stop_eq hrun]; exact Executor.running_foldl_cancel ..
  | stopExecutor => exact Server.requeues_stopExecutor trivial (hexp (by simp))
  | @take _ task e h =>
    obtain ⟨-, -, hqueue, -⟩ := (Executor.next?_eq_some_iff ..).mp h
    have hroutine : task.work.IsRoutine := hs.routine task (hqueue ▸ List.mem_cons_self)
    -- the sweep defers a job for each expired selection, any other job defers nothing
    by_cases hjob : (e.launch s.now task).2 = some (.duty .sweep)
    · exact Server.requeues_sweep h hroutine hjob
    · refine .of_take h hroutine rfl [] ?_ (fun _ h => absurd h List.not_mem_nil) fun g => ?_
      · rw [Server.queue_undertake _ hjob]
        exact .refl _
      · rw [hexp (fun h => hjob (Deed.work.inj h)) g, List.countP_nil, Nat.zero_add]
  | conclude h => exact Server.requeues_concludeExecute hkeyed h trivial (hexp (by simp))

end Telecontrol
