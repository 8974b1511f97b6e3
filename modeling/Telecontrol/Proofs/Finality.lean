import Telecontrol.Proofs.Conservation

/-! # A stop is final

A stop closes the executor. From then on nothing is accepted and no task is taken, whoever calls and
whatever runs. The worker may have a task in hand at that moment: the body of this one task may
still begin, and no other one. What the closed executor keeps is dropped, and the worker leaves.
In a session, where nobody else acts while a body stops the executor, it is dropped at once.

Main statements: `Workshop.Closed.course` (what a closed executor comes to),
`Workshop.Attended.inHand_perm` (which bodies begin when no task is taken), `Workshop.Course.final`,
and `Session.Tidy.run` (nothing waits in a session that was stopped). -/

namespace Telecontrol

variable {β : Type}

/-- A closed executor puts no further run of a chain into the queue. -/
theorem Executor.launch_of_stopped (e : Executor β) (hstopped : e.running = false) (now : Int)
    (t : Task β) : (e.launch now t).1 = e := by
  rw [launch_eq]
  split
  · rfl
  · cases hwork : t.work with
    | once body => rfl
    | periodic chain interval body => simp [rearm, hstopped]

namespace Workshop

variable {w u v : Workshop β} {log since newer older : Timeline β} {now time : Int} {t : Task β}

/-! ## Closed executors -/

/-- The executor is **closed**. -/
def Closed (w : Workshop β) : Prop := w.executor.running = false

/-- With a closed executor nothing enters and nothing starts. It stays closed, what has been dropped
is gone for good, and a worker that has left does not come back. -/
theorem Closed.step (hw : w.Closed) (hstep : Step w since v) :
    since.entries = [] ∧ since.starts = [] ∧ v.Closed ∧
      (w.executor.queue = [] → v.executor.queue = []) ∧
      (w.worker = .gone → v.worker = .gone ∧ since.begins = []) := by
  have hstopped : w.executor.running = false := hw
  -- what a closed executor refuses comes first, then the steps that it still allows
  cases hstep with
  | add htime hadd =>
    rw [Executor.add, hstopped] at hadd
    cases (Prod.mk.inj hadd).2
  | refuse htime hadd =>
    obtain rfl := Executor.add_eq_false hadd
    exact ⟨rfl, rfl, hw, id, fun hgone => ⟨hgone, rfl⟩⟩
  | @begin _ interval _ _ _ htime hadd =>
    rw [Executor.addPeriodic, hstopped] at hadd
    by_cases hshort : interval < minInterval
    · rw [if_pos hshort] at hadd
      cases hadd
    · rw [if_neg hshort] at hadd
      cases hadd
  | take hworker hnext =>
    have hrunning := ((Executor.next?_eq_some_iff ..).mp hnext).1
    rw [hstopped] at hrunning
    cases hrunning
  | @rearm t time body due hworker htime hlaunch =>
    have hsame := w.executor.launch_of_stopped hstopped time t
    have hseq := congrArg Executor.nextSeq ((congrArg Prod.fst hlaunch).symm.trans hsame)
    exact absurd hseq (Nat.succ_ne_self _)
  | pass | cancel => exact ⟨rfl, rfl, hw, id, fun hgone => ⟨hgone, rfl⟩⟩
  | halt => exact ⟨rfl, rfl, rfl, id, fun hgone => ⟨hgone, rfl⟩⟩
  | drain => exact ⟨rfl, rfl, hw, fun _ => rfl, fun hgone => ⟨hgone, rfl⟩⟩
  | spare hworker | launch hworker | run hworker | finish hworker =>
    exact ⟨rfl, rfl, hw, id, fun hgone => by cases hworker.symm.trans hgone⟩
  | leave => exact ⟨rfl, rfl, hw, id, fun _ => ⟨rfl, rfl⟩⟩

/-- So it is however long the course goes on. -/
theorem Closed.course (hw : w.Closed) (h : Course w log v) :
    log.entries = [] ∧ log.starts = [] ∧ v.Closed ∧
      (w.executor.queue = [] → v.executor.queue = []) ∧
      (w.worker = .gone → v.worker = .gone ∧ log.begins = []) := by
  induction h with
  | refl => exact ⟨rfl, rfl, hw, id, fun hgone => ⟨hgone, rfl⟩⟩
  | @step log since u v _ hstep ih =>
    obtain ⟨hentries, hstarts, hclosed, hqueue, hgone⟩ := ih
    obtain ⟨hentries', hstarts', hclosed', hqueue', hgone'⟩ := hclosed.step hstep
    refine ⟨by simp [hentries, hentries'], by simp [hstarts, hstarts'], hclosed',
      fun hnone => hqueue' (hqueue hnone), fun hleft => ?_⟩
    obtain ⟨hworker, hbegins⟩ := hgone hleft
    obtain ⟨hworker', hbegins'⟩ := hgone' hworker
    exact ⟨hworker', by simp [hbegins, hbegins']⟩

/-- The step that closes an executor leaves the worker alone. -/
theorem Step.of_stopped (hstep : Step w [(time, .stopped)] v) : v.Closed ∧ v.worker = w.worker := by
  cases hstep
  exact ⟨rfl, rfl⟩

/-- Only a closed executor drops what waits. -/
theorem Step.of_drained (hstep : Step w [(time, .drained)] v) :
    w.Closed ∧ v.Closed ∧ v.executor.queue = [] := by
  cases hstep with
  | drain hstopped => exact ⟨hstopped, hstopped, rfl⟩

/-- The worker of a closed executor leaves. -/
theorem Step.of_left (hstep : Step w [(time, .left)] v) :
    w.Closed ∧ v.Closed ∧ v.worker = .gone := by
  cases hstep with
  | leave hworker hstopped => exact ⟨hstopped, hstopped, rfl⟩

/-- A step closes the executor, or leaves it as it was. -/
theorem Step.closed_iff (hstep : Step w since v) :
    v.Closed ↔ w.Closed ∨ ∃ time, (time, .stopped) ∈ since := by
  -- every other step leaves the executor running as it was
  have hsame (hrunning : v.executor.running = w.executor.running)
      (hnone : ∀ time, (time, .stopped) ∉ since) :
      v.Closed ↔ w.Closed ∨ ∃ time, (time, .stopped) ∈ since := by
    rw [Closed, Closed, hrunning]
    exact (or_iff_left fun ⟨time, hmem⟩ => hnone time hmem).symm
  cases hstep with
  | halt => exact iff_of_true rfl (.inr ⟨w.now, List.mem_singleton_self _⟩)
  | add htime hadd =>
    obtain rfl := Executor.add_eq_true hadd
    exact hsame rfl (by simp)
  | refuse htime hadd =>
    obtain rfl := Executor.add_eq_false hadd
    exact hsame rfl (by simp)
  | begin htime hadd =>
    obtain ⟨-, rfl⟩ := Executor.addPeriodic_eq_ok hadd
    exact hsame rfl (by simp)
  | take hworker hnext =>
    exact hsame ((Executor.next?_eq_some_iff ..).mp hnext).2.2.2.2.2.2 (by simp)
  | pass | cancel | drain | spare | launch | rearm | run | finish | leave =>
    exact hsame rfl (by simp)

/-- An executor is closed exactly when it was stopped. -/
theorem Course.closed_iff (h : Course (opened now) log w) :
    w.Closed ↔ ∃ time, (time, .stopped) ∈ log := by
  induction h with
  | refl => exact iff_of_false Bool.noConfusion fun ⟨_, hmem⟩ => absurd hmem List.not_mem_nil
  | step _ hstep ih =>
    rw [hstep.closed_iff, ih]
    simp only [List.mem_append, exists_or]
    exact or_comm

/-! ## The task in hand -/

/-- A task in hand was started, and nothing has become of it yet. -/
theorem Course.of_inHand (h : Course (opened now) log w) (ht : t ∈ w.worker.inHand) :
    t ∈ log.starts ∧ t ∉ log.begins ∧ t ∉ log.spares := by
  have hstart := h.attended.starts.mem_iff.mpr (List.mem_append_left _ ht)
  have hone := (h.fate t).mp hstart
  have hin : w.HasMet log t .inHand := Worker.mem_inHand_iff.mp ht
  refine ⟨hstart, fun hbegin => ?_, fun hspare => ?_⟩
  · cases hone.unique hin (show w.HasMet log t .begun from hbegin)
  · cases hone.unique hin (show w.HasMet log t .spared from hspare)

/-- While no task is started, bodies begin, and tasks are let go, only of what was in hand. -/
theorem Attended.inHand_perm (hold : Attended older u) (h : Attended (newer ++ older) v)
    (hnone : newer.starts = []) :
    u.worker.inHand.Perm (v.worker.inHand ++ (newer.begins ++ newer.spares)) := by
  have hafter := h.starts
  rw [Timeline.starts_append, hnone, List.nil_append, Timeline.begins_append,
    Timeline.spares_append] at hafter
  have hmix : ((newer.begins ++ older.begins) ++ (newer.spares ++ older.spares)).Perm
      ((newer.begins ++ newer.spares) ++ (older.begins ++ older.spares)) := by
    simp only [List.append_assoc]
    exact (List.perm_append_comm_assoc ..).append_left _
  have hboth := hold.starts.symm.trans (hafter.trans (hmix.append_left _))
  rw [← List.append_assoc v.worker.inHand] at hboth
  exact (List.perm_append_right_iff _).mp hboth

/-! ## What a stop comes to -/

/-- A stop is **final**. -/
structure Final (log : Timeline β) (w : Workshop β) : Prop where
  /-- Since the executor was closed nothing has entered and nothing has started, and nothing is
  accepted. -/
  stopped : ∀ {newer older : Timeline β} {time : Int}, log = newer ++ (time, .stopped) :: older →
    newer.entries = [] ∧ newer.starts = [] ∧ w.executor.running = false ∧
    (∀ now delay body, w.executor.add now delay body = (w.executor, false)) ∧
    ∀ now interval body, minInterval ≤ interval →
      w.executor.addPeriodic now interval body = .error .stopped
  /-- One body at most has begun since then. Its task was started before, and its body had not begun
  when the executor was closed. -/
  inHand : ∀ {newer older : Timeline β} {time : Int}, log = newer ++ (time, .stopped) :: older →
    newer.begins.length ≤ 1 ∧
    ∀ t ∈ newer.begins, t ∈ older.starts ∧ t ∉ older.begins ∧ t ∉ older.spares
  /-- No body has begun since an executor was closed while a body was running, in particular by that
  body. -/
  within : ∀ {newer older : Timeline β} {time : Int}, log = newer ++ (time, .stopped) :: older →
    ∀ t ∈ older.begins, t ∉ older.ends → newer.begins = []
  /-- What waits is dropped only when the executor is closed, and nothing waits since then. -/
  drained : ∀ {newer older : Timeline β} {time : Int}, log = newer ++ (time, .drained) :: older →
    (∃ before, (before, .stopped) ∈ older) ∧ w.executor.queue = [] ∧ w.executor.pending = 0
  /-- The worker leaves only when the executor is closed, and no body has begun since then. -/
  left : ∀ {newer older : Timeline β} {time : Int}, log = newer ++ (time, .left) :: older →
    (∃ before, (before, .stopped) ∈ older) ∧ w.worker = .gone ∧ newer.begins = []

/-- The task in hand is the only one whose body begins when the executor is closed. -/
theorem Course.since_stopped (h : Course (opened now) log w)
    (hlog : log = newer ++ (time, .stopped) :: older) :
    ∃ u, Course (opened now) older u ∧
      u.worker.inHand.Perm (w.worker.inHand ++ (newer.begins ++ newer.spares)) := by
  obtain ⟨u, u', hold, hstep, hnew⟩ := h.split hlog
  obtain ⟨hclosed, hworker⟩ := hstep.of_stopped
  have hnone := (hclosed.course hnew).2.1
  have hperm := (hold.step hstep).attended.inHand_perm (hlog ▸ h.attended) hnone
  exact ⟨u, hold, hworker ▸ hperm⟩

/-- Throughout a course a stop is final. -/
theorem Course.final (h : Course (opened now) log w) : Final log w where
  stopped hlog := by
    obtain ⟨u, u', hold, hstep, hnew⟩ := h.split hlog
    obtain ⟨hentries, hstarts, hclosed, -⟩ := hstep.of_stopped.1.course hnew
    -- a course from a closed executor adds no entry and no start, by `Closed.step`
    have hstopped : w.executor.running = false := hclosed
    refine ⟨hentries, hstarts, hstopped, fun now delay body => ?_,
      fun now interval body hinterval => ?_⟩
    · rw [Executor.add, hstopped]
      rfl
    · rw [Executor.addPeriodic, if_neg (Nat.not_lt.mpr hinterval), hstopped]
      rfl
  inHand hlog := by
    obtain ⟨u, hold, hperm⟩ := h.since_stopped hlog
    refine ⟨?_, fun t ht => hold.of_inHand (hperm.mem_iff.mpr ?_)⟩
    · -- the worker holds one task at most
      have hlength := hperm.length_eq
      simp only [List.length_append] at hlength
      have hone := u.worker.length_inHand_le
      omega
    · exact List.mem_append_right _ (List.mem_append_left _ ht)
  within hlog t hbegin hend := by
    obtain ⟨u, hold, hperm⟩ := h.since_stopped hlog
    -- the body that runs is all that the worker holds, so nothing is left to begin
    rw [(hold.running_iff t).mp ⟨hbegin, hend⟩] at hperm
    have hnil := hperm.symm.eq_nil
    rw [List.append_eq_nil_iff, List.append_eq_nil_iff] at hnil
    exact hnil.2.1
  drained hlog := by
    obtain ⟨u, u', hold, hstep, hnew⟩ := h.split hlog
    obtain ⟨hclosed, hclosed', hnone⟩ := hstep.of_drained
    have hqueue := (hclosed'.course hnew).2.2.2.1 hnone
    exact ⟨hold.closed_iff.mp hclosed, hqueue, by rw [Executor.pending, hqueue]; rfl⟩
  left hlog := by
    obtain ⟨u, u', hold, hstep, hnew⟩ := h.split hlog
    obtain ⟨hclosed, hclosed', hgone⟩ := hstep.of_left
    obtain ⟨hworker, hbegins⟩ := (hclosed'.course hnew).2.2.2.2 hgone
    exact ⟨hold.closed_iff.mp hclosed, hworker, hbegins⟩

end Workshop

/-! ## Sessions that were stopped -/

namespace Executor

/-- An executor is **tidy** when nothing waits in it once it is closed. -/
def Tidy (e : Executor β) : Prop := e.running = false → e.queue = []

variable {e e' : Executor β} {now delay : Int} {interval : Nat} {body : β} {chain : ChainId}
  {t : Task β}

/-- An executor that runs is tidy, whatever waits. -/
theorem Tidy.of_running (h : e.running = true) : e.Tidy := fun hstopped => by
  cases h.symm.trans hstopped

/-- Handing over a body leaves an executor tidy. -/
theorem Tidy.add (h : e.Tidy) (now delay : Int) (body : β) : (e.add now delay body).1.Tidy := by
  rw [Executor.add]
  split
  · exact .of_running ‹_›
  · exact h

/-- Beginning a chain leaves an executor tidy. -/
theorem Tidy.of_addPeriodic (h : e.addPeriodic now interval body = .ok (e', chain)) : e'.Tidy := by
  rw [addPeriodic] at h
  split at h
  · cases h
  · split at h
    · obtain ⟨rfl, -⟩ := Prod.mk.inj (Except.ok.inj h)
      exact .of_running ‹_›
    · cases h

/-- Launching a task leaves an executor tidy. -/
theorem Tidy.launch (h : e.Tidy) (now : Int) (t : Task β) : (e.launch now t).1.Tidy := by
  cases hrunning : e.running with
  | false =>
    rw [e.launch_of_stopped hrunning]
    exact h
  | true =>
    rw [launch_eq]
    split
    · exact h
    · rcases e.rearm_cases now t.work with hsame | ⟨due, hpush⟩
      · exact hsame.symm ▸ h
      · exact hpush.symm ▸ .of_running hrunning

/-- Only an executor that runs has a next task. -/
theorem Tidy.of_next? (h : e.next? now = some (t, e')) : e'.Tidy := by
  obtain ⟨hrunning, -, -, -, -, -, hsame⟩ := (next?_eq_some_iff ..).mp h
  exact .of_running (hsame.trans hrunning)

end Executor

namespace Session

variable {s s' : Session}

/-- A session is **tidy** when nothing waits in it once it was stopped. -/
def Tidy (s : Session) : Prop := s.executor.Tidy

/-- A new session is tidy. -/
theorem tidy_start (now : Int) : (start now).Tidy := .of_running rfl

/-- A stop by a client or by a body leaves a session tidy, and so does every other command. -/
theorem Tidy.perform (h : s.Tidy) (c : Command) : (s.perform c).1.Tidy := by
  cases c with
  | add label delay commands =>
    have hadd : (s.executor.add s.now delay ⟨label, commands⟩).1.Tidy :=
      Executor.Tidy.add h s.now delay ⟨label, commands⟩
    simp only [Session.perform]
    split <;> exact hadd
  | periodic label interval commands =>
    simp only [Session.perform]
    cases hadd : s.executor.addPeriodic s.now interval ⟨label, commands⟩ with
    | error e => exact h
    | ok r => exact Executor.Tidy.of_addPeriodic hadd
  | cancel label =>
    simp only [Session.perform]
    cases s.handle? label with
    | none => exact h
    | some chain => exact h
  | stop =>
    simp only [Session.perform, Session.stop]
    split
    · exact fun _ => rfl
    · exact h
  | isCancelled | dropHandle | isRunning | pending | describe | panic | spend => exact h

/-- A body leaves a session tidy. -/
theorem Tidy.run (h : s.Tidy) (label : String) (commands : List Command) :
    (s.run label commands).Tidy := by
  fun_induction Session.run s label commands with
  | case1 s => exact h
  | case2 s message rest => exact h
  | case3 s ms rest ih => exact ih h
  | case4 s c rest _ _ u reply hperform ih =>
    have hnext : (s.perform c).1.Tidy := h.perform c
    rw [hperform] at hnext
    exact ih hnext

/-- The worker leaves a session tidy. -/
theorem Tidy.step? (h : s.step? = some s') : s'.Tidy := by
  cases hnext : s.executor.next? s.now with
  | none => rw [Session.step?, hnext] at h; cases h
  | some r =>
    obtain ⟨t, e⟩ := r
    obtain ⟨u, rfl, hnow, -, hstep⟩ := step?_eq hnext
    obtain rfl := Option.some.inj (h.symm.trans hstep)
    have hlaunch : (u.executor.launch s.now t).1.Tidy :=
      (Executor.Tidy.of_next? hnext).launch s.now t
    cases (u.executor.launch s.now t).2 with
    | none => exact hlaunch
    | some body =>
      have hbegan : ({ u with executor := (u.executor.launch s.now t).1 }.note
          (.began body.label)).Tidy := hlaunch
      exact hbegan.run body.label body.commands

/-- Letting the worker run leaves a session tidy. -/
theorem Tidy.settleWithin (h : s.Tidy) (limit : Nat) : (s.settleWithin limit).Tidy := by
  induction limit generalizing s with
  | zero => exact h
  | succ limit ih =>
    rw [Session.settleWithin]
    cases hstep : s.step? with
    | none => exact h
    | some s' => exact ih (.step? hstep)

/-- Waiting for a target leaves a session tidy. -/
theorem Tidy.waitWithin (h : s.Tidy) (target : Int) (limit : Nat) :
    (s.waitWithin target limit).Tidy := by
  induction limit generalizing s with
  | zero => exact h
  | succ limit ih =>
    rw [Session.waitWithin]
    split
    · exact h
    · rename_i time htime
      split
      · exact ih (Tidy.settleWithin (s := s.moveTo time) h _)
      · exact h

/-- So does letting time pass. -/
theorem Tidy.advance (h : s.Tidy) (ms : Nat) : (s.advance ms).Tidy :=
  Tidy.settleWithin (s := Session.moveTo _ _) ((h.settleWithin _).waitWithin _ _) _

/-- So does letting it pass at once. -/
theorem Tidy.jump (h : s.Tidy) (ms : Nat) : (s.jump ms).Tidy :=
  Tidy.settleWithin (s := s.spend ms) h _

end Session

end Telecontrol
