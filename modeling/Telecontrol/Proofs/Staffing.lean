import Telecontrol.Proofs.Duties
import Telecontrol.Proofs.Operate

/-! # Two duties at a time

A server that was not given up is **manned** by one chain of each duty while it runs and by none
while it is stopped, however often it is started and stopped, also by callbacks of its duties. So
the starts of a duty are a tick apart, before and after a restart.

Main statements: `Move.staffed` (every move keeps a server staffed), `Move.rests` (no move calls a
duty before its time) and `Server.duties_kept`. -/

namespace Telecontrol

namespace Server

/-! ## Manned servers -/

/-- The work of two chains, one for each duty. -/
def roster (tick : Nat) (inventory sweep : ChainId) : List (Work Job) :=
  [.periodic inventory tick (.duty .inventory), .periodic sweep tick (.duty .sweep)]

/-- The duties of a **manned** server. -/
structure Manned (s : Server) : Prop where
  /-- While it runs, one chain of each duty goes on, and each has one task in the queue. -/
  running : s.running = true → ∃ inventory sweep, inventory ≠ sweep ∧
    s.duties = [inventory, sweep] ∧
    (s.executor.armed.map Task.work).Perm (roster s.options.tickRate inventory sweep)
  /-- While it is stopped, no chain goes on. -/
  stopped : s.running = false → s.duties = [] ∧ s.executor.armed = []
  /-- A duty is due within a tick. -/
  prompt : ∀ t ∈ s.executor.armed, ∃ due, t.due = .timed due ∧ due ≤ s.now + s.options.tickRate

/-- What holds of the duties of a server that was not given up. -/
structure Dutiful (s : Server) : Prop extends Manned s where
  /-- It can be started. -/
  restarts : ∃ s', s.start = .ok s' ∧ s'.running = true
  /-- The worker begins a duty only while the server runs. -/
  starts : ∀ duty, s.nextJob? = some (.duty duty) → s.running = true

/-- A server is **staffed** when it is manned and ready to start again: its executor runs, chains to
come are new ones, and duties are done by chains alone. -/
structure Staffed (s : Server) : Prop extends Manned s where
  alive : s.executor.running = true
  frequent : minInterval ≤ s.options.tickRate
  spent : ∀ chain ∈ s.executor.cancelled, chain < s.executor.nextChain
  enlisted : ∀ chain ∈ s.duties, chain < s.executor.nextChain
  routine : ∀ t ∈ s.executor.queue, ∀ duty, t.work ≠ .once (.duty duty)

variable {s s' : Server}

/-- A new server is staffed. -/
theorem staffed_new {options : Options} {transport : Transport} {now : Int}
    (h : Server.new options transport now = .ok s) : s.Staffed := by
  have hfrequent : minInterval ≤ options.tickRate := by
    rw [Server.new] at h
    split at h
    · cases h
    · omega
  obtain rfl := new_eq_ok h
  exact {
    running := fun hrun => absurd hrun Bool.false_ne_true
    stopped := fun _ => ⟨rfl, rfl⟩
    prompt := fun _ ht => absurd ht List.not_mem_nil
    alive := rfl
    frequent := hfrequent
    spent := fun _ hc => absurd hc List.not_mem_nil
    enlisted := fun _ hc => absurd hc List.not_mem_nil
    routine := fun _ ht => absurd ht List.not_mem_nil }

namespace Staffed

/-- The armed tasks of a staffed server are the next runs of its duties, one for each tick. -/
theorem work_of_armed (hs : s.Staffed) {t : Task Job} (ht : t ∈ s.executor.armed) :
    s.running = true ∧ ∃ chain ∈ s.duties, ∃ duty,
      t.work = .periodic chain s.options.tickRate (.duty duty) := by
  cases hrun : s.running with
  | false =>
    rw [(hs.stopped hrun).2] at ht
    cases ht
  | true =>
    obtain ⟨c₁, c₂, -, hduties, hperm⟩ := hs.running hrun
    have hmem := hperm.mem_iff.mp (List.mem_map_of_mem ht)
    rcases List.mem_cons.mp hmem with h | h
    · exact ⟨rfl, c₁, by simp [hduties], .inventory, h⟩
    · exact ⟨rfl, c₂, by simp [hduties], .sweep, List.mem_singleton.mp h⟩

/-- The interval of an armed task is a tick. -/
theorem interval_eq (hs : s.Staffed) {t : Task Job} (ht : t ∈ s.executor.armed) {chain : ChainId}
    {interval : Nat} {body : Job} (hwork : t.work = .periodic chain interval body) :
    interval = s.options.tickRate := by
  obtain ⟨-, _, -, _, hwork'⟩ := hs.work_of_armed ht
  exact (Work.periodic.inj (hwork.symm.trans hwork')).2.1

/-- A duty has one armed task. -/
theorem armed_unique (hs : s.Staffed) {t : Task Job} {rest : List (Task Job)}
    (hrest : s.executor.armed = t :: rest) {u : Task Job} (hu : u ∈ rest) :
    u.work.body ≠ t.work.body := by
  obtain ⟨hrun, -⟩ := hs.work_of_armed (hrest ▸ List.mem_cons_self)
  obtain ⟨c₁, c₂, -, -, hperm⟩ := hs.running hrun
  have hnodup : ((s.executor.armed.map Task.work).map Work.body).Nodup := by
    refine (hperm.map Work.body).nodup_iff.mpr ?_
    show [Job.duty .inventory, Job.duty .sweep].Nodup
    decide
  rw [hrest, List.map_cons, List.map_cons] at hnodup
  refine fun heq => (List.nodup_cons.mp hnodup).1 ?_
  rw [← heq]
  exact List.mem_map_of_mem (List.mem_map_of_mem hu)

/-- A staffed server that is left alone, but for tasks that are no duties, stays staffed. -/
theorem steady (hs : s.Staffed) (h : s.Steady s') (hopt : s'.options = s.options)
    (hnow : s.now ≤ s'.now) : s'.Staffed where
  running hrun := by
    obtain ⟨c₁, c₂, hne, hduties, hperm⟩ := hs.running (h.running ▸ hrun)
    refine ⟨c₁, c₂, hne, h.duties.trans hduties, ?_⟩
    rw [hopt]
    exact (h.gains.armed.map _).trans hperm
  stopped hrun := by
    obtain ⟨hduties, harmed⟩ := hs.stopped (h.running ▸ hrun)
    refine ⟨h.duties.trans hduties, ?_⟩
    -- no task is armed, and the change arms none
    have hperm := h.gains.armed
    rw [harmed] at hperm
    exact hperm.eq_nil
  prompt t ht := by
    obtain ⟨due, hdue, hle⟩ := hs.prompt t (h.gains.armed.mem_iff.mp ht)
    rw [hopt]
    exact ⟨due, hdue, by omega⟩
  alive := h.gains.running.trans hs.alive
  frequent := hopt ▸ hs.frequent
  spent := by
    rw [h.gains.cancelled, h.gains.nextChain]
    exact hs.spent
  enlisted := by
    rw [h.duties, h.gains.nextChain]
    exact hs.enlisted
  routine t ht duty := by
    rcases h.gains.mem_queue ht with ht | ⟨job, hwork, hjob⟩
    · exact hs.routine t ht duty
    · rw [hwork]
      exact fun heq => hjob duty (Work.once.inj heq)

/-- When the duties begin, their chains are new and the first task of each is armed. -/
theorem armed_of_begins (hs : s.Staffed) (h : s.Begins s') :
    ∃ inventory sweep m n, inventory < sweep ∧ sweep < s'.executor.nextChain ∧
      s'.duties = [inventory, sweep] ∧
      s'.executor.armed.Perm
        [⟨.timed (s.now + s.options.tickRate), m,
            .periodic inventory s.options.tickRate (.duty .inventory)⟩,
          ⟨.timed (s.now + s.options.tickRate), n,
            .periodic sweep s.options.tickRate (.duty .sweep)⟩] := by
  obtain ⟨e₁, c₁, c₂, h₁, h₂, hduties⟩ := h.chains
  obtain ⟨hnil, hnone⟩ := hs.stopped h.before
  obtain ⟨rfl, hnext₁, hcancelled₁⟩ := Executor.addPeriodic_fields h₁
  obtain ⟨rfl, hnext₂, -⟩ := Executor.addPeriodic_fields h₂
  -- the second chain is new although the first one was taken
  have hspent : ∀ c ∈ e₁.cancelled, c < e₁.nextChain := by
    rw [hcancelled₁, hnext₁]
    exact fun c hc => Nat.lt_succ_of_lt (hs.spent c hc)
  have harmed₁ := Executor.armed_addPeriodic h₁ hs.spent
  have harmed₂ := Executor.armed_addPeriodic h₂ hspent
  rw [hnone] at harmed₁
  refine ⟨_, _, _, _, ?_, ?_, by rw [hduties, hnil]; rfl,
    (harmed₂.trans (harmed₁.cons _)).trans (.swap ..)⟩
  · rw [hnext₁]
    exact Nat.lt_succ_self _
  · rw [hnext₂]
    exact Nat.lt_succ_self _

/-- When the duties begin, the server gets its two chains. -/
theorem begins (hs : s.Staffed) (h : s.Begins s') (hopt : s'.options = s.options)
    (hnow : s.now ≤ s'.now) : s'.Staffed := by
  obtain ⟨inventory, sweep, m, n, hlt, hnext, hduties, harmed⟩ := hs.armed_of_begins h
  obtain ⟨e₁, c₁, c₂, h₁, h₂, -⟩ := h.chains
  obtain ⟨-, hnext₁, hcancelled₁⟩ := Executor.addPeriodic_fields h₁
  obtain ⟨-, hnext₂, hcancelled₂⟩ := Executor.addPeriodic_fields h₂
  constructor
  -- the clauses about the chains follow from what the beginning arms
  case toManned =>
    constructor
    case running =>
      intro _
      refine ⟨inventory, sweep, hlt.ne, hduties, ?_⟩
      rw [hopt]
      exact harmed.map _
    case stopped =>
      intro hrun
      rw [h.after] at hrun
      cases hrun
    case prompt =>
      intro t ht
      rw [hopt]
      refine ⟨s.now + s.options.tickRate, ?_, by omega⟩
      rcases List.mem_cons.mp (harmed.mem_iff.mp ht) with rfl | hmem
      · rfl
      · rw [List.mem_singleton.mp hmem]
  case alive =>
    rw [(Executor.queue_addPeriodic h₂).1, (Executor.queue_addPeriodic h₁).1]
    exact hs.alive
  case frequent =>
    exact hopt ▸ hs.frequent
  case spent =>
    rw [hcancelled₂, hcancelled₁, hnext₂, hnext₁]
    exact fun c hc => Nat.lt_succ_of_lt (Nat.lt_succ_of_lt (hs.spent c hc))
  case enlisted =>
    rw [hduties]
    intro c hc
    rcases List.mem_cons.mp hc with rfl | hc
    · exact Nat.lt_trans hlt hnext
    · rw [List.mem_singleton.mp hc]
      exact hnext
  case routine =>
    intro t ht duty
    rw [(Executor.queue_addPeriodic h₂).2, (Executor.queue_addPeriodic h₁).2] at ht
    rcases Task.mem_place.mp ht with rfl | ht
    · exact nofun
    · rcases Task.mem_place.mp ht with rfl | ht
      · exact nofun
      · exact hs.routine t ht duty

/-- When the duties end, their chains are cancelled. -/
theorem ends (hs : s.Staffed) (h : s.Ends s') (hopt : s'.options = s.options) : s'.Staffed := by
  obtain ⟨hnext, hcancelled⟩ := Executor.foldl_cancel_fields s.executor s.duties
  -- every armed task belongs to one of the duties, and these are cancelled
  have hnone : s'.executor.armed = [] := by
    refine List.eq_nil_iff_forall_not_mem.mpr fun t ht => ?_
    rw [h.executor, Executor.mem_armed_foldl_cancel] at ht
    obtain ⟨-, chain, hchain, duty, hwork⟩ := hs.work_of_armed ht.1
    exact ht.2 chain (by rw [hwork]; rfl) hchain
  constructor
  case toManned =>
    constructor
    case running =>
      intro hrun
      rw [h.after] at hrun
      cases hrun
    case stopped =>
      exact fun _ => ⟨h.duties, hnone⟩
    case prompt =>
      intro t ht
      rw [hnone] at ht
      cases ht
  case alive =>
    rw [h.executor, Executor.running_foldl_cancel]
    exact hs.alive
  case frequent =>
    exact hopt ▸ hs.frequent
  case spent =>
    rw [h.executor, hnext]
    intro c hc
    rcases (hcancelled c).mp hc with hc | hc
    · exact hs.enlisted c hc
    · exact hs.spent c hc
  case enlisted =>
    rw [h.duties]
    exact nofun
  case routine =>
    rw [h.executor, Executor.queue_foldl_cancel]
    exact hs.routine

/-- When the worker takes a task, its chain goes on. -/
theorem launched (hs : s.Staffed) {t : Task Job} {e : Executor Job}
    (h : s.executor.next? s.now = some (t, e)) :
    ({ s with executor := (e.launch s.now t).1 } : Server).Staffed := by
  obtain ⟨-, -, hqueue, -, -, -, hrunning⟩ := (Executor.next?_eq_some_iff _ e s.now t).mp h
  obtain ⟨hnext, hcancelled⟩ := Executor.launch_fields h
  have hworks := Executor.work_armed_launch h
  constructor
  case toManned =>
    constructor
    case running =>
      intro hrun
      obtain ⟨c₁, c₂, hne, hduties, hperm⟩ := hs.running hrun
      exact ⟨c₁, c₂, hne, hduties, hworks.trans hperm⟩
    case stopped =>
      intro hrun
      obtain ⟨hduties, hnone⟩ := hs.stopped hrun
      rw [hnone] at hworks
      exact ⟨hduties, List.map_eq_nil_iff.mp hworks.eq_nil⟩
    case prompt =>
      intro u hu
      rcases Executor.mem_armed_launch h hu with hu | ⟨_, interval, _, hdue, ht, hwork⟩
      · exact hs.prompt u hu
      · -- the chain that goes on is the one that was armed, with the interval of the server
        obtain rfl := hs.interval_eq ht hwork
        exact ⟨_, hdue, Int.le_refl _⟩
  case alive =>
    rw [Executor.running_launch, hrunning]
    exact hs.alive
  case frequent =>
    exact hs.frequent
  case spent =>
    rw [hcancelled, hnext]
    exact hs.spent
  case enlisted =>
    rw [hnext]
    exact hs.enlisted
  case routine =>
    intro u hu duty
    rcases Executor.mem_queue_launch hu with hu | hu
    · exact hs.routine u (hqueue ▸ List.mem_cons_of_mem t hu) duty
    · rw [hu]
      exact hs.routine t (hqueue ▸ List.mem_cons_self) duty

end Staffed

end Server

/-- Every move but that which gives the server up keeps it staffed. -/
theorem Move.staffed {d : Deed} {s s' : Server} (h : Move d s s') (hd : d ≠ .shutDown)
    (hs : s.Staffed) : s'.Staffed := by
  have hopt := h.alters.options
  rcases h.duties_cases hd with hsteady | hbegins | hends | ⟨t, e, hnext, hsteady⟩
  · exact hs.steady hsteady hopt h.now_le
  · exact hs.begins hbegins hopt h.now_le
  · exact hs.ends hends hopt
  · exact (hs.launched hnext).steady hsteady hopt h.now_le

/-! ## Between two starts of a duty -/

namespace Server

variable {s s' : Server} {duty : Duty} {time : Int}

/-- A duty **rests** until an instant when its armed tasks are due no earlier. -/
def Rests (s : Server) (duty : Duty) (time : Int) : Prop :=
  ∀ t ∈ s.executor.armed, t.work.body = .duty duty → ∃ due, t.due = .timed due ∧ time ≤ due

/-- The worker begins a duty with an armed task, and the next run of its chain is due in a tick. -/
theorem Staffed.launch_duty (hs : s.Staffed) {t : Task Job} {e : Executor Job}
    (hnext : s.executor.next? s.now = some (t, e))
    (hjob : (e.launch s.now t).2 = some (.duty duty)) :
    t.work.body = .duty duty ∧ s.executor.armed = t :: e.armed ∧
      (e.launch s.now t).1.armed.Perm
        (⟨.timed (s.now + s.options.tickRate), e.nextSeq, t.work⟩ :: e.armed) := by
  have hbody := Executor.body_of_launch hjob
  have hmem : t ∈ s.executor.queue :=
    ((Executor.next?_eq_some_iff _ e s.now t).mp hnext).2.2.1 ▸ List.mem_cons_self
  rcases Executor.armed_launch hnext with ⟨-, -, honce⟩ |
    ⟨_, interval, _, hwork, harmed, hlaunch, hperm⟩
  -- what runs once is no duty
  · exact absurd (honce _ hjob) (hs.routine t hmem duty)
  · obtain rfl := hs.interval_eq (harmed ▸ List.mem_cons_self) hwork
    rw [hlaunch]
    exact ⟨hbody, harmed, hperm⟩

/-- The worker begins a duty of a staffed server with its armed task, and only while the server
runs. -/
theorem Staffed.next?_of_duty (hs : s.Staffed) (h : s.nextJob? = some (.duty duty)) :
    s.running = true ∧ ∃ t e, s.executor.next? s.now = some (t, e) ∧
      t ∈ s.executor.armed ∧ t.work.body = .duty duty := by
  obtain ⟨t, e, hnext, hjob⟩ := next?_of_nextJob? h
  obtain ⟨hbody, harmed, -⟩ := hs.launch_duty hnext hjob
  have ht : t ∈ s.executor.armed := harmed ▸ List.mem_cons_self
  exact ⟨(hs.work_of_armed ht).1, t, e, hnext, ht, hbody⟩

/-- A duty does not begin while it rests. -/
theorem Rests.le_now (h : s.Rests duty time) (hs : s.Staffed)
    (hnext : s.nextJob? = some (.duty duty)) : time ≤ s.now := by
  obtain ⟨-, t, e, htake, harmed, hbody⟩ := hs.next?_of_duty hnext
  obtain ⟨due, hdue, hle⟩ := h t harmed hbody
  have hready := ((Executor.next?_eq_some_iff _ e s.now t).mp htake).2.1
  rw [hdue] at hready
  exact Int.le_trans hle (of_decide_eq_true hready)

/-- A duty rests on when tasks are gained. -/
theorem Rests.steady (h : s.Rests duty time) (hsteady : s.Steady s') : s'.Rests duty time :=
  fun t ht => h t (hsteady.gains.armed.mem_iff.mp ht)

/-- Having begun a duty, the worker leaves it to rest for a tick. -/
theorem Staffed.rests_of_take (hs : s.Staffed) (h : Move (.work (some (.duty duty))) s s') :
    s'.Rests duty (s.now + s.options.tickRate) := by
  generalize hd : Deed.work (some (.duty duty)) = d at h
  cases h with
  | @take _ t e hnext =>
    obtain ⟨hbody, harmed, hperm⟩ := hs.launch_duty hnext (Deed.work.inj hd).symm
    refine Rests.steady (s := { s with executor := (e.launch s.now t).1 }) ?_ (.undertake _ _)
    intro u hu hduty
    rcases List.mem_cons.mp (hperm.mem_iff.mp hu) with rfl | hu
    · exact ⟨_, rfl, Int.le_refl _⟩
    -- the other armed task is one of the other duty
    · exact absurd (hduty.trans hbody.symm) (hs.armed_unique harmed hu)
  | _ => cases hd

end Server

/-- No move calls a duty before its time, unless it gives the server up: what it arms is due a tick
later. -/
theorem Move.rests {d : Deed} {s s' : Server} {duty : Duty} {time : Int} (h : Move d s s')
    (hd : d ≠ .shutDown) (hs : s.Staffed) (hrests : s.Rests duty time)
    (htime : time ≤ s.now + s.options.tickRate) : s'.Rests duty time := by
  rcases h.duties_cases hd with hsteady | hbegins | hends | ⟨t, e, hnext, hsteady⟩
  · exact hrests.steady hsteady
  · intro t ht _
    obtain ⟨_, _, _, _, -, -, -, harmed⟩ := hs.armed_of_begins hbegins
    rcases List.mem_cons.mp (harmed.mem_iff.mp ht) with rfl | hmem
    · exact ⟨_, rfl, htime⟩
    · rw [List.mem_singleton.mp hmem]
      exact ⟨_, rfl, htime⟩
  · intro t ht
    rw [hends.executor, Executor.mem_armed_foldl_cancel] at ht
    exact hrests t ht.1
  · refine Server.Rests.steady (s := { s with executor := (e.launch s.now t).1 }) ?_ hsteady
    intro u hu hduty
    rcases Executor.mem_armed_launch hnext hu with hu | ⟨_, interval, _, hdue, ht, hwork⟩
    · exact hrests u hu hduty
    · obtain rfl := hs.interval_eq ht hwork
      exact ⟨_, hdue, htime⟩

/-! ## Runs -/

/-- Ordinary deeds do not give a server up. -/
theorem Deed.IsOrdinary.ne_shutDown {d : Deed} (h : d.IsOrdinary) : d ≠ .shutDown := by
  rintro rfl
  exact h

/-- The clock is never put back. -/
theorem Moves.now_le {deeds : Set Deed} {s s' : Server} (h : Moves deeds s s') : s.now ≤ s'.now :=
  h.induction (P := fun u => s.now ≤ u.now) (fun _ hm hu => Int.le_trans hu hm.now_le)
    (Int.le_refl _)

/-- Moves keep a server well-formed. -/
theorem Moves.wellFormed {deeds : Set Deed} {s s' : Server} (h : Moves deeds s s')
    (hs : s.WellFormed) : s'.WellFormed :=
  h.induction (fun _ hm hu => hm.wellFormed hu) hs

namespace Server

variable {s s' : Server} {duty : Duty} {time : Int}

/-- A server stays staffed until it is given up. -/
theorem Staffed.moves (hs : s.Staffed) (h : Moves {d | d ≠ .shutDown} s s') : s'.Staffed :=
  h.induction (fun hd hm hu => hm.staffed hd hu) hs

/-- A duty rests until its time has come. -/
theorem Rests.moves (h : s.Rests duty time) (hs : s.Staffed)
    (htime : time ≤ s.now + s.options.tickRate) (hm : Moves {d | d ≠ .shutDown} s s') :
    s'.Rests duty time := by
  refine (hm.induction (P := fun u => u.Staffed ∧ time ≤ u.now + u.options.tickRate ∧
    u.Rests duty time) (fun hd hm hu => ?_) ⟨hs, htime, h⟩).2.2
  obtain ⟨hs, htime, h⟩ := hu
  refine ⟨hm.staffed hd hs, ?_, hm.rests hd hs h htime⟩
  have hnow := hm.now_le
  rw [hm.alters.options]
  omega

/-- What the worker does for one input: it takes a task, and what comes before and after it is
ordinary. -/
theorem work_moves (hs : s.WellFormed) (hw : s.work? = some s') : ∃ s₁ s₂,
    Moves {d | d ≠ .shutDown} s s₁ ∧ Move (.work s.nextJob?) s₁ s₂ ∧
      Moves {d | d ≠ .shutDown} s₂ s' ∧ s₁.now = s.now := by
  obtain ⟨s₁, s₂, hnote, htake, hrest, hnow, -⟩ := work?_cases hs hw
  exact ⟨s₁, s₂, (ordinarily hnote).mono fun _ hd => hd.ne_shutDown, htake,
    hrest.mono fun _ hd => hd.isOrdinary.ne_shutDown, hnow⟩

/-- No input gives a server up but the one that is for it. -/
theorem moves_of_step (hs : s.WellFormed) {i : Input} (hi : i ≠ .shutDown) :
    Moves {d | d ≠ .shutDown} s (s.step i) := by
  by_cases hwork : i = .work
  · rw [hwork]
    show Moves _ s (s.work?.getD s)
    cases hw : s.work? with
    | none => exact .refl s
    | some s' =>
      obtain ⟨s₁, s₂, hnote, htake, hrest, -⟩ := work_moves hs hw
      exact (hnote.trans (.single (nofun : Deed.work _ ≠ .shutDown) htake)).trans hrest
  · exact (step_ordinary hs hwork hi).mono fun _ hd => hd.ne_shutDown

/-- A run gives a server up with the input that is for it only. -/
theorem moves_of_run (hs : s.WellFormed) {inputs : List Input} (h : .shutDown ∉ inputs) :
    Moves {d | d ≠ .shutDown} s (s.run inputs) := by
  induction inputs generalizing s with
  | nil => exact .refl s
  | cons i rest ih =>
    rw [List.mem_cons, not_or] at h
    have hstep := moves_of_step hs (Ne.symm h.1)
    exact hstep.trans (ih (hstep.wellFormed hs) h.2)

/-- When the worker has begun a duty, the duty rests for a tick. -/
theorem Staffed.rests_of_work (hs : s.Staffed) (hwell : s.WellFormed)
    (h : s.nextJob? = some (.duty duty)) :
    (s.step .work).Rests duty (s.now + s.options.tickRate) := by
  obtain ⟨t, e, hnext, -⟩ := next?_of_nextJob? h
  have hw : s.work? = some (s.step .work) := by
    show _ = some (s.work?.getD s)
    rw [(work?_eq hnext).2]
    rfl
  obtain ⟨s₁, s₂, hnote, htake, hrest, hnow⟩ := work_moves hwell hw
  rw [h] at htake
  have hs₁ := hs.moves hnote
  have hrests := hs₁.rests_of_take htake
  rw [hnow, hnote.options_eq] at hrests
  refine hrests.moves (htake.staffed nofun hs₁) ?_ hrest
  have hle := htake.now_le
  rw [htake.alters.options, hnote.options_eq]
  omega

/-- The second of two starts of a duty comes a tick after the first, at the earliest. -/
theorem Staffed.apart (hs : s.Staffed) (hwell : s.WellFormed)
    (h : s.nextJob? = some (.duty duty)) (hm : Moves {d | d ≠ .shutDown} (s.step .work) s')
    (h' : s'.nextJob? = some (.duty duty)) : s.now + s.options.tickRate ≤ s'.now := by
  have hwork := moves_of_step hwell (i := .work) nofun
  refine Rests.le_now ((hs.rests_of_work hwell h).moves (hs.moves hwork) ?_ hm)
    ((hs.moves hwork).moves hm) h'
  have hle := hwork.now_le
  rw [hwork.options_eq]
  omega

/-- A staffed server can be started. -/
theorem Staffed.restarts (hs : s.Staffed) : ∃ s', s.start = .ok s' ∧ s'.running = true := by
  cases hrun : s.running with
  | true => exact ⟨s, start_of_running hrun, hrun⟩
  | false =>
    obtain ⟨e₁, c₁, h₁⟩ :=
      Executor.exists_addPeriodic hs.alive s.now (.duty .inventory) hs.frequent
    have halive := (Executor.queue_addPeriodic h₁).1.trans hs.alive
    obtain ⟨e₂, c₂, h₂⟩ := Executor.exists_addPeriodic halive s.now (.duty .sweep) hs.frequent
    refine ⟨{ s with
      running := true
      executor := e₂
      duties := s.duties ++ [c₁] ++ [c₂] }.report (.started s.options.tickRate), ?_, rfl⟩
    simp [start, hrun, beginDuty, bind, Except.bind, pure, Except.pure, h₁, h₂]

/-- A staffed server does its duties. -/
theorem Staffed.dutiful (hs : s.Staffed) : s.Dutiful :=
  ⟨hs.toManned, hs.restarts, fun _ h => (hs.next?_of_duty h).1⟩

/-- **Duties.** As long as a server is not given up, it is dutiful, between its inputs and while
callbacks run, however often it is started and stopped; and any two starts of one duty are at least
a tick apart. -/
theorem duties_kept {options : Options} {transport : Transport} {now : Int} {s₀ : Server}
    (hnew : Server.new options transport now = .ok s₀) :
    (∀ s, Moves {d | d ≠ .shutDown} s₀ s → s.Dutiful) ∧
      (∀ inputs, .shutDown ∉ inputs → (s₀.run inputs).Dutiful) ∧
      ∀ duty before between, .shutDown ∉ before ++ .work :: between →
        (s₀.run before).nextJob? = some (.duty duty) →
        (s₀.run (before ++ .work :: between)).nextJob? = some (.duty duty) →
        (s₀.run before).now + options.tickRate ≤ (s₀.run (before ++ .work :: between)).now := by
  have hstaffed := staffed_new hnew
  have hwell := wellFormed_new hnew
  have hoptions : s₀.options = options := by
    obtain rfl := new_eq_ok hnew
    rfl
  refine ⟨fun s hm => (hstaffed.moves hm).dutiful,
    fun inputs h => (hstaffed.moves (moves_of_run hwell h)).dutiful, ?_⟩
  intro duty before between hkeep hfirst hsecond
  rw [List.mem_append, not_or, List.mem_cons, not_or] at hkeep
  -- the run splits at the first start, and both parts keep the worker
  obtain ⟨hbefore, -, hbetween⟩ := hkeep
  have hm := moves_of_run hwell hbefore
  have hwell' := hm.wellFormed hwell
  have hstep := moves_of_step hwell' (i := .work) nofun
  have hrest := moves_of_run (hstep.wellFormed hwell') hbetween
  rw [run_append, run_cons] at hsecond ⊢
  have happart := (hstaffed.moves hm).apart hwell' hfirst hrest hsecond
  rwa [hm.options_eq, hoptions] at happart

/-- The sample site when its duties are due for the first time. -/
def Sample.early : List Input := [.start, .pass 1000]

/-- The sample site is stopped and started within a tick, and the worker comes to the tasks of the
old chains. -/
def Sample.restart : List Input := [.stop, .start, .work, .pass 1000, .work]

/-- After the restart four tasks wait at the sample site, two of which are armed; the inventory
begins before it and again a tick later. -/
theorem sample_duties_kept :
    let restarted := Sample.site.run (Sample.early ++ .work :: [.stop, .start])
    let again := Sample.site.run (Sample.early ++ .work :: Sample.restart)
    restarted.Dutiful ∧ restarted.executor.pending = 4 ∧ restarted.executor.armed.length = 2 ∧
      (Sample.site.run Sample.early).nextJob? = some (.duty .inventory) ∧
      again.nextJob? = some (.duty .inventory) ∧
      (Sample.site.run Sample.early).now + 1000 ≤ again.now := by
  obtain ⟨-, hruns, hapart⟩ := duties_kept Sample.new_site
  have hfirst : (Sample.site.run Sample.early).nextJob? = some (.duty .inventory) := rfl
  have hsecond : (Sample.site.run (Sample.early ++ .work :: Sample.restart)).nextJob? =
      some (.duty .inventory) := rfl
  refine ⟨hruns _ ?_, rfl, rfl, hfirst, hsecond,
    hapart .inventory Sample.early Sample.restart ?_ hfirst hsecond⟩
  · simp [Sample.early]
  · simp [Sample.early, Sample.restart]

end Server

end Telecontrol
