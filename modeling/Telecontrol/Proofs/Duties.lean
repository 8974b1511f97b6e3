import Telecontrol.Proofs.Chronicle

/-! # The duties of a server

The duties of a running server are chains of its executor. A chain that was cancelled keeps its task
in the queue until the worker comes to it, and a chain that goes on has its next task in the queue
before its body begins; after a stop and a start old tasks and new ones wait together. What counts
are the tasks that are **armed**, those of chains that were not cancelled.

Main statements: `Executor.armed_launch` (what the launch of a task does to the armed ones) and
`Move.duties_cases` (what a move does to the duties). -/

namespace Telecontrol

/-! ## Tasks that are armed -/

namespace Executor

variable {β : Type} {e e' : Executor β} {t : Task β} {now : Int} {interval : Nat} {body : β}
  {chain : ChainId}

/-- Whether the chain of a task goes on. -/
def isArmed (e : Executor β) (t : Task β) : Bool :=
  t.work.chain?.any fun chain => !e.isCancelled chain

/-- The tasks that wait and are **armed**: their chains were not cancelled. -/
def armed (e : Executor β) : List (Task β) := e.queue.filter e.isArmed

/-- A task that runs once arms nothing. -/
theorem isArmed_once (h : t.work = .once body) : e.isArmed t = false := by
  rw [isArmed, h]
  rfl

/-- A run of a chain is armed unless the chain was cancelled. -/
theorem isArmed_periodic (h : t.work = .periodic chain interval body) :
    e.isArmed t = true ↔ chain ∉ e.cancelled := by
  rw [isArmed, h]
  simp [Work.chain?, isCancelled]

/-- Whether a task is armed depends on the chains that were cancelled. -/
theorem isArmed_congr (h : e'.cancelled = e.cancelled) : e'.isArmed = e.isArmed := by
  funext t
  rw [isArmed, isArmed]
  simp only [isCancelled, h]

/-- The armed tasks are those in the queue that are armed. -/
theorem mem_armed : t ∈ e.armed ↔ t ∈ e.queue ∧ e.isArmed t = true := List.mem_filter

/-- A chain whose interval is long enough begins as long as the executor runs. -/
theorem exists_addPeriodic (hrun : e.running = true) (now : Int) (body : β)
    (hlong : minInterval ≤ interval) :
    ∃ e' chain, e.addPeriodic now interval body = .ok (e', chain) := by
  rw [addPeriodic, if_neg (Nat.not_lt.mpr hlong), if_pos hrun]
  exact ⟨_, _, rfl⟩

/-- A chain that begins has a new identity. -/
theorem addPeriodic_fields (h : e.addPeriodic now interval body = .ok (e', chain)) :
    chain = e.nextChain ∧ e'.nextChain = e.nextChain + 1 ∧ e'.cancelled = e.cancelled := by
  obtain ⟨hchain, rfl⟩ := addPeriodic_eq_ok h
  exact ⟨hchain, rfl, rfl⟩

/-- Putting the next run of a chain that goes on into the queue arms it. -/
theorem armed_push {work : Work β} (due : Due) (hwork : work = .periodic chain interval body)
    (hgoes : chain ∉ e.cancelled) :
    (e.push due work).armed.Perm (⟨due, e.nextSeq, work⟩ :: e.armed) := by
  have harmed : e.isArmed ⟨due, e.nextSeq, work⟩ = true := (isArmed_periodic hwork).mpr hgoes
  have hsame : (e.push due work).isArmed = e.isArmed := isArmed_congr rfl
  rw [armed, armed, hsame]
  refine ((push_perm ..).filter _).trans ?_
  rw [List.singleton_append, List.filter_cons_of_pos harmed]

/-- The first task of a chain is armed. -/
theorem armed_addPeriodic (h : e.addPeriodic now interval body = .ok (e', chain))
    (hspent : ∀ c ∈ e.cancelled, c < e.nextChain) :
    e'.armed.Perm
      (⟨.timed (now + interval), e.nextSeq, .periodic chain interval body⟩ :: e.armed) := by
  have hnew : e.nextChain ∉ e.cancelled := fun hmem => Nat.lt_irrefl _ (hspent _ hmem)
  obtain ⟨rfl, rfl⟩ := addPeriodic_eq_ok h
  exact armed_push _ rfl hnew

/-- Cancelling chains. -/
theorem foldl_cancel_fields (e : Executor β) (chains : List ChainId) :
    (chains.foldl cancel e).nextChain = e.nextChain ∧
      ∀ c, c ∈ (chains.foldl cancel e).cancelled ↔ c ∈ chains ∨ c ∈ e.cancelled := by
  induction chains generalizing e with
  | nil => exact ⟨rfl, fun c => by simp⟩
  | cons chain rest ih =>
    obtain ⟨hnext, hcancelled⟩ := ih (e.cancel chain)
    refine ⟨hnext, fun c => (hcancelled c).trans ?_⟩
    show c ∈ rest ∨ c ∈ chain :: e.cancelled ↔ _
    simp only [List.mem_cons]
    tauto

/-- The tasks that are armed after chains were cancelled. -/
theorem mem_armed_foldl_cancel (chains : List ChainId) : t ∈ (chains.foldl cancel e).armed ↔
    t ∈ e.armed ∧ ∀ c, t.work.chain? = some c → c ∉ chains := by
  rw [mem_armed, mem_armed, queue_foldl_cancel, and_assoc]
  refine and_congr_right fun _ => ?_
  obtain ⟨due, seq, work⟩ := t
  cases work with
  | once body => simp [isArmed, Work.chain?]
  | periodic chain interval body =>
    rw [isArmed_periodic rfl, isArmed_periodic rfl, (foldl_cancel_fields e chains).2, not_or]
    simp only [Work.chain?, Option.some.injEq, forall_eq']
    exact and_comm

/-- A task that is armed is the next run of a chain that was not cancelled. -/
theorem work_of_isArmed (h : e.isArmed t = true) :
    ∃ chain interval body, t.work = .periodic chain interval body ∧ chain ∉ e.cancelled := by
  cases hwork : t.work with
  | once body =>
    rw [isArmed_once hwork] at h
    cases h
  | periodic chain interval body =>
    exact ⟨chain, interval, body, rfl, (isArmed_periodic hwork).mp h⟩

/-- What the launch of the next task does: either the task was not armed, and then the armed ones
stay and it runs its body only if it is no run of a chain, or it was, and the next run of its chain
takes its place, due one interval from now. -/
theorem armed_launch (h : e.next? now = some (t, e')) :
    ((e'.launch now t).1 = e' ∧ e'.armed = e.armed ∧
      ∀ body, (e'.launch now t).2 = some body → t.work = .once body) ∨
    ∃ chain interval body, t.work = .periodic chain interval body ∧ e.armed = t :: e'.armed ∧
      e'.launch now t = (e'.push (.timed (now + interval)) t.work, some body) ∧
      (e'.push (.timed (now + interval)) t.work).armed.Perm
        (⟨.timed (now + interval), e'.nextSeq, t.work⟩ :: e'.armed) := by
  obtain ⟨hrun, -, hqueue, -, -, hcancelled, hrunning⟩ := (next?_eq_some_iff e e' now t).mp h
  have hsame : e'.isArmed = e.isArmed := isArmed_congr hcancelled
  cases harmed : e.isArmed t with
  | false =>
    have hstay : e'.armed = e.armed := by
      rw [armed, armed, hsame, hqueue, List.filter_cons_of_neg (by simp [harmed])]
    cases hwork : t.work with
    | once body =>
      rw [launch_once e' now hwork]
      exact .inl ⟨rfl, hstay, fun _ hbody => by rw [Option.some.inj hbody]⟩
    | periodic chain interval body =>
      -- the chain of the task was cancelled, so it ends
      have hend : chain ∈ e'.cancelled := by
        by_contra hnot
        rw [hcancelled] at hnot
        rw [(isArmed_periodic hwork).mpr hnot] at harmed
        cases harmed
      have hnone : e'.launch now t = (e', none) := by
        rw [launch, hwork]
        simp [isCancelled, hend]
      rw [hnone]
      exact .inl ⟨rfl, hstay, fun _ hbody => by cases hbody⟩
  | true =>
    obtain ⟨chain, interval, body, hwork, hgoes⟩ := work_of_isArmed harmed
    rw [← hcancelled] at hgoes
    refine .inr ⟨chain, interval, body, hwork, ?_, ?_, armed_push _ hwork hgoes⟩
    · rw [armed, armed, hsame, hqueue, List.filter_cons_of_pos harmed]
    · rw [launch, hwork]
      simp [isCancelled, hgoes, hrunning, hrun]

/-- The launch of a task keeps the work that is armed. -/
theorem work_armed_launch (h : e.next? now = some (t, e')) :
    ((e'.launch now t).1.armed.map Task.work).Perm (e.armed.map Task.work) := by
  rcases armed_launch h with ⟨hsame, harmed, -⟩ | ⟨_, _, _, -, harmed, hlaunch, hperm⟩
  · rw [hsame, harmed]
  · rw [hlaunch, harmed]
    exact hperm.map _

/-- A task that is armed after a launch was armed before it, or takes the place of an armed task of
its chain. -/
theorem mem_armed_launch {u : Task β} (h : e.next? now = some (t, e'))
    (hu : u ∈ (e'.launch now t).1.armed) :
    u ∈ e.armed ∨ ∃ (chain : ChainId) (interval : Nat) (body : β),
      u.due = .timed (now + interval) ∧ t ∈ e.armed ∧ t.work = .periodic chain interval body := by
  rcases armed_launch h with ⟨hsame, harmed, -⟩ |
    ⟨chain, interval, body, hwork, harmed, hlaunch, hperm⟩
  · rw [hsame] at hu
    exact .inl (harmed ▸ hu)
  · rw [hlaunch] at hu
    rcases List.mem_cons.mp (hperm.mem_iff.mp hu) with rfl | hu
    · exact .inr ⟨chain, interval, body, rfl, harmed ▸ List.mem_cons_self, hwork⟩
    · exact .inl (harmed ▸ List.mem_cons_of_mem t hu)

/-- The launch of a task begins no chain and cancels none. -/
theorem launch_fields (h : e.next? now = some (t, e')) :
    (e'.launch now t).1.nextChain = e.nextChain ∧ (e'.launch now t).1.cancelled = e.cancelled := by
  obtain ⟨-, -, -, -, hnext, hcancelled, -⟩ := (next?_eq_some_iff e e' now t).mp h
  rcases armed_launch h with ⟨hsame, -⟩ | ⟨_, _, _, -, -, hlaunch, -⟩
  · rw [hsame]
    exact ⟨hnext, hcancelled⟩
  · rw [hlaunch]
    exact ⟨hnext, hcancelled⟩

/-- An executor **gains** tasks: they run once, and none of them is a duty. -/
structure Gains (e e' : Executor Job) : Prop where
  running : e'.running = e.running
  nextChain : e'.nextChain = e.nextChain
  cancelled : e'.cancelled = e.cancelled
  queue : ∃ added : List (Task Job), e'.queue.Perm (added ++ e.queue) ∧
    ∀ t ∈ added, ∃ job, t.work = .once job ∧ ∀ duty, job ≠ .duty duty

namespace Gains

variable {e e' e'' : Executor Job}

/-- An executor gains nothing from itself. -/
theorem refl (e : Executor Job) : e.Gains e :=
  ⟨rfl, rfl, rfl, [], .refl _, fun _ h => absurd h List.not_mem_nil⟩

/-- What is gained one after the other is gained. -/
theorem trans (h : e.Gains e') (h' : e'.Gains e'') : e.Gains e'' where
  running := h'.running.trans h.running
  nextChain := h'.nextChain.trans h.nextChain
  cancelled := h'.cancelled.trans h.cancelled
  queue := by
    obtain ⟨added, hperm, honce⟩ := h.queue
    obtain ⟨added', hperm', honce'⟩ := h'.queue
    refine ⟨added' ++ added, ?_, fun t ht => ?_⟩
    · rw [List.append_assoc]
      exact hperm'.trans (hperm.append_left added')
    · rcases List.mem_append.mp ht with ht | ht
      · exact honce' t ht
      · exact honce t ht

/-- A job that is no duty is gained. -/
theorem push (e : Executor Job) (due : Due) {job : Job} (hjob : ∀ duty, job ≠ .duty duty) :
    e.Gains (e.push due (.once job)) := by
  refine ⟨rfl, rfl, rfl, _, push_perm .., fun t ht => ⟨job, ?_, hjob⟩⟩
  rw [List.mem_singleton.mp ht]

/-- The tasks that are gained are not armed. -/
theorem armed (h : e.Gains e') : e'.armed.Perm e.armed := by
  obtain ⟨added, hperm, honce⟩ := h.queue
  have hnone : added.filter e.isArmed = [] := by
    refine List.filter_eq_nil_iff.mpr fun t ht harmed => ?_
    obtain ⟨job, hwork, -⟩ := honce t ht
    rw [isArmed_once hwork] at harmed
    cases harmed
  rw [Executor.armed, isArmed_congr h.cancelled]
  refine (hperm.filter _).trans ?_
  rw [List.filter_append, hnone]
  exact .refl _

/-- A task that waits did so before, or runs once and is no duty. -/
theorem mem_queue {t : Task Job} (h : e.Gains e') (ht : t ∈ e'.queue) :
    t ∈ e.queue ∨ ∃ job, t.work = .once job ∧ ∀ duty, job ≠ .duty duty := by
  obtain ⟨added, hperm, honce⟩ := h.queue
  rcases List.mem_append.mp (hperm.mem_iff.mp ht) with ht | ht
  · exact .inr (honce t ht)
  · exact .inl ht

end Gains

end Executor

/-! ## What moves do to the duties -/

namespace Server

variable {s s' s'' : Server}

/-- A server is **steady** when its duties are left alone and its executor gains tasks at most. -/
structure Steady (s s' : Server) : Prop where
  running : s'.running = s.running
  duties : s'.duties = s.duties
  gains : s.executor.Gains s'.executor

namespace Steady

/-- A server is steady when nothing is done. -/
theorem refl (s : Server) : s.Steady s := ⟨rfl, rfl, .refl _⟩

/-- One steady change may follow another. -/
theorem trans (h : s.Steady s') (h' : s'.Steady s'') : s.Steady s'' :=
  ⟨h'.running.trans h.running, h'.duties.trans h.duties, h.gains.trans h'.gains⟩

/-- Deferring a job that is no duty is steady. -/
theorem defer (s : Server) (delay : Int) {job : Job} (hjob : ∀ duty, job ≠ .duty duty) :
    s.Steady (s.defer delay job) := by
  rw [defer_eq]
  split
  · exact ⟨rfl, rfl, .push _ _ hjob⟩
  · exact ⟨rfl, rfl, .refl _⟩

/-- The events of connections are steady. -/
theorem onConnectionEvent (s : Server) (c : ConnectionId) (e : ConnectionEvent) :
    s.Steady (s.onConnectionEvent c e) := by
  rw [onConnectionEvent_eq]
  exact ⟨rfl, rfl, .refl _⟩

/-- Ending a selection is steady. -/
theorem deactivate (s : Server) (held : Selection) : s.Steady (s.deactivate held).1 := by
  rw [Server.deactivate]
  split
  · cases s.selections.find? held.station held.address <;> exact ⟨rfl, rfl, .refl _⟩
  · exact .refl s

/-- Giving up an executed selection is steady. -/
theorem releaseExecuted (s : Server) (station : CommonAddress) (address : ObjectAddress)
    (created : Int) : s.Steady (s.releaseExecuted station address created) := by
  rw [Server.releaseExecuted]
  cases s.selections.createdAt? station address created <;> exact ⟨rfl, rfl, .refl _⟩

/-- Dropping the expired selections is steady. -/
theorem dropExpired (s : Server) : s.Steady s.dropExpired := by
  refine dropExpired_induction (P := s.Steady) s ⟨rfl, rfl, .refl _⟩ fun u held _ hu => ?_
  exact hu.trans ((show u.Steady (u.note _) from ⟨rfl, rfl, .refl _⟩).trans
    (.defer _ _ fun duty => nofun))

/-- Undertaking a job is steady. -/
theorem undertake (s : Server) (job : Option Job) : s.Steady (s.undertake job) := by
  unfold Server.undertake
  split
  · exact .releaseExecuted ..
  · exact ⟨rfl, rfl, .refl _⟩
  · exact .dropExpired s
  · exact .refl s

/-- Concluding an execute is steady. -/
theorem concludeExecute (s : Server) {c : ConnectionId} {m : Message}
    (h : m.station ≠ globalAddress) : s.Steady (s.concludeExecute c m) := by
  rw [concludeExecute_eq h]
  have hback : s.Steady (s.sendBack c m.termination) := ⟨rfl, rfl, .refl _⟩
  split
  · exact hback
  · exact hback.trans (.defer _ _ fun duty => nofun)

end Steady

/-- The duties of a server **begin**. -/
structure Begins (s s' : Server) : Prop where
  before : s.running = false
  after : s'.running = true
  chains : ∃ (e₁ : Executor Job) (c₁ c₂ : ChainId),
    s.executor.addPeriodic s.now s.options.tickRate (.duty .inventory) = .ok (e₁, c₁) ∧
    e₁.addPeriodic s.now s.options.tickRate (.duty .sweep) = .ok (s'.executor, c₂) ∧
    s'.duties = s.duties ++ [c₁] ++ [c₂]

/-- The duties of a server **end**. -/
structure Ends (s s' : Server) : Prop where
  before : s.running = true
  after : s'.running = false
  duties : s'.duties = []
  executor : s'.executor = s.duties.foldl Executor.cancel s.executor

end Server

/-- What a move does to the duties: nothing, they begin or end, or the worker takes a task. -/
theorem Move.duties_cases {d : Deed} {s s' : Server} (h : Move d s s') (hd : d ≠ .shutDown) :
    s.Steady s' ∨ s.Begins s' ∨ s.Ends s' ∨ ∃ t e, s.executor.next? s.now = some (t, e) ∧
      ({ s with executor := (e.launch s.now t).1 } : Server).Steady s' := by
  cases h with
  | note | handOver | write | plant | attach | callbacks | pass | grant | apply =>
    exact .inl ⟨rfl, rfl, .refl _⟩
  | defer _ delay hjob =>
    -- the duties themselves are never deferred
    refine .inl (.defer s delay fun duty heq => ?_)
    rw [heq] at hjob
    cases hjob
  | connection => exact .inl (.onConnectionEvent ..)
  | start h =>
    cases hrun : s.running with
    | true =>
      rw [Server.start_of_running hrun] at h
      obtain rfl := Except.ok.inj h
      exact .inl (.refl s)
    | false =>
      -- a start that fails leaves all as it was, and one that succeeds begins both duties
      rcases Server.start_cases h with rfl | ⟨e₁, e₂, c₁, c₂, h₁, h₂, rfl⟩
      · exact .inl (.refl _)
      · exact .inr (.inl ⟨hrun, rfl, e₁, c₁, c₂, h₁, h₂, rfl⟩)
  | stop =>
    cases hrun : s.running with
    | true => exact .inr (.inr (.inl (by rw [Server.stop_eq hrun]; exact ⟨hrun, rfl, rfl, rfl⟩)))
    | false =>
      rw [Server.stop_of_not_running hrun]
      exact .inl (.refl s)
  | stopExecutor => exact absurd rfl hd
  | @take _ t e h => exact .inr (.inr (.inr ⟨t, e, h, .undertake _ _⟩))
  | deactivate => exact .inl (.deactivate ..)
  | conclude h => exact .inl (.concludeExecute s h.station)

end Telecontrol
