import Telecontrol.Proofs.Expiry
import Telecontrol.Proofs.Packing
import Telecontrol.Proofs.Release

/-! # Telling the holders of expired selections

The worker tells the holder of a selection at most once that it has expired, and not before it has.
The holder of an executed selection is told only if the sweep **overtakes** the release: if it comes
while the release still waits and finds the selection expired.

Main statements: `Server.Books.run` (a run enters what it tells into the books),
`Server.Visited.hasExpired_iff` (the selection that an execution consumed expires exactly when a
sweep overtakes the release) and `Server.unselect_unexecuted`. -/

namespace Telecontrol

/-- A frame tells the holder of a selection that it has expired: an activation termination with the
select bit. -/
structure Selection.IsToldBy (g : Selection) (f : Frame) : Prop where
  type : f.type = g.type
  cause : f.cause = .activationTermination
  station : f.station = g.station
  originator : f.originator = g.originator
  objects : ∃ value, f.objects = [{ address := g.address, value, select := true }]

/-! ## The jobs of a run -/

/-- The job that an input makes the worker take, with the instant. -/
def Input.job? (s : Server) : Input → Option (Int × Job)
  | .work => s.nextJob?.map (s.now, ·)
  | _ => none

/-- Only the worker takes jobs. -/
theorem Input.job?_eq_none {s : Server} {i : Input} (h : i ≠ .work) : i.job? s = none := by
  cases i with
  | work => exact absurd rfl h
  | _ => rfl

namespace Server

/-- The jobs that the worker takes in a run, with their instants, the earliest first. -/
def jobs (s : Server) : List Input → List (Int × Job)
  | [] => []
  | i :: rest => (i.job? s).toList ++ (s.step i).jobs rest

/-- How often the holder of a selection is told in a run that the selection has expired. -/
def told (s : Server) (inputs : List Input) (g : Selection) : Nat :=
  (s.jobs inputs).countP fun j => j.2.tells g

/-- Who is told in the first step is told before all others. -/
theorem told_cons (s : Server) (i : Input) (rest : List Input) (g : Selection) :
    s.told (i :: rest) g =
      ((i.job? s).toList.countP fun j => j.2.tells g) + (s.step i).told rest g := List.countP_append

variable {s : Server} {inputs : List Input} {g : Selection} {x : Execution}

/-- Every job is taken at one place of the run. -/
theorem mem_jobs {u : Int} {job : Job} (h : (u, job) ∈ s.jobs inputs) :
    ∃ before after, inputs = before ++ .work :: after ∧
      (s.run before).nextJob? = some job ∧ (s.run before).now = u := by
  induction inputs generalizing s with
  | nil => cases h
  | cons i rest ih =>
    rw [jobs, List.mem_append] at h
    rcases h with h | h
    · rw [Option.mem_toList] at h
      by_cases hi : i = .work
      · subst hi
        obtain ⟨job', hjob, hpair⟩ := Option.map_eq_some_iff.mp h
        obtain ⟨rfl, rfl⟩ := Prod.mk.inj hpair
        exact ⟨[], rest, rfl, hjob, rfl⟩
      · rw [Input.job?_eq_none hi] at h
        cases h
    · obtain ⟨before, after, rfl, hjob, hu⟩ := ih h
      exact ⟨i :: before, after, rfl, hjob, hu⟩

/-- Something that a run brings about is brought about by one of its steps. -/
theorem exists_step {P : Server → Prop} (hstart : ¬ P s) (hend : P (s.run inputs)) :
    ∃ before i after, inputs = before ++ i :: after ∧
      ¬ P (s.run before) ∧ P ((s.run before).step i) := by
  induction inputs generalizing s with
  | nil => exact absurd hend hstart
  | cons i rest ih =>
    by_cases hi : P (s.step i)
    · exact ⟨[], i, rest, rfl, hstart, hi⟩
    · obtain ⟨before, j, after, rfl, hb, ha⟩ := ih hi hend
      exact ⟨i :: before, j, after, rfl, hb, ha⟩

/-! ## The books of a run -/

/-- A step enters what it tells into the books. -/
theorem Books.step {n : Nat} (h : Books g n s) (hs : s.Visited) (i : Input) :
    Books g (n + (i.job? s).toList.countP fun j => j.2.tells g) (s.step i) := by
  by_cases hi : i = .work
  · subst hi
    show Books g _ (s.work?.getD s)
    cases hw : s.work? with
    | none =>
      cases hnext : s.executor.next? s.now with
      | none =>
        have hjob : Input.work.job? s = none := by
          rw [Input.job?, nextJob?, hnext]
          rfl
        rw [hjob]
        exact h
      | some r => rw [(work?_eq hnext).2] at hw; cases hw
    | some s' =>
      obtain ⟨s₁, s₂, hnote, htake, hrest, -⟩ := work?_cases hs.wellFormed hw
      have hs₁ := hs.moves hnote
      have hbooks := ((h.moves hs (idly hnote)).move hs₁ htake).moves (hs₁.move htake)
        (hrest.mono fun _ hd => hd.isIdle)
      -- the one task taken is told in the books of the run and in those of the move alike
      have hcount : (Input.work.job? s).toList.countP (fun j => j.2.tells g) =
          ((Deed.work s.nextJob?).tells g).toNat := by
        rw [Input.job?]
        cases s.nextJob? with
        | none => rfl
        | some job =>
          show [(s.now, job)].countP _ = (job.tells g).toNat
          cases hj : job.tells g <;> simp [hj]
      rw [hcount]
      exact hbooks
  · rw [Input.job?_eq_none hi]
    exact h.moves hs (step_moves hs.wellFormed hi)

/-- A run enters what it tells into the books. -/
theorem Books.run {n : Nat} (h : Books g n s) (hs : s.Visited) (inputs : List Input) :
    Books g (n + s.told inputs g) (s.run inputs) := by
  induction inputs generalizing s n with
  | nil => exact h
  | cons i rest ih =>
    have hrest := ih (h.step hs i) (hs.step i)
    rwa [Nat.add_assoc, ← told_cons] at hrest

/-! ## Telling a holder -/

/-- The holder of a selection is told by one frame to its connection. -/
theorem sendUnselect_eq (s : Server) (g : Selection) :
    ∃ f, g.IsToldBy f ∧ s.sendUnselect g = s.handOver (.direct g.connection f) := by
  refine ⟨_, ?_, rfl⟩
  rw [Frame.tryAdd_of_empty rfl]
  exact ⟨rfl, rfl, rfl, rfl, _, rfl⟩

/-- The job of telling a holder hands over one frame, and nothing else is done. -/
theorem step_unselect_eq (h : s.nextJob? = some (.unselect g)) :
    ∃ task e f, g.IsToldBy f ∧
      s.step .work = (s.taking task e).handOver (.direct g.connection f) := by
  obtain ⟨task, e, hnext, -⟩ := next?_of_nextJob? h
  obtain ⟨f, hf, hsend⟩ := (s.taking task e).sendUnselect_eq g
  refine ⟨task, e, f, hf, ?_⟩
  rw [← hsend]
  show s.work?.getD s = _
  rw [(work?_eq hnext).2, h]
  rfl

/-- What the worker does with the job of telling a holder. -/
theorem step_unselect (h : s.nextJob? = some (.unselect g)) :
    ∃ f, g.IsToldBy f ∧
      (s.step .work).journal.head? = some ⟨s.now, .sent (.direct g.connection f)⟩ := by
  obtain ⟨task, e, f, hf, hstep⟩ := step_unselect_eq h
  have hnow : (s.taking task e).now = s.now := (s.noteLateness_fields task).1
  refine ⟨f, hf, ?_⟩
  rw [hstep, ← hnow]
  rfl

/-! ## Executed selections -/

/-- A selection has expired, as the journal tells. -/
def HasExpired (s : Server) (g : Selection) : Prop := ∃ u, ⟨u, .ended g .expired⟩ ∈ s.journal

/-- The sweep **overtakes** the release of an execution: it comes next, while the release still
waits, and finds the consumed selection expired. -/
structure Overtakes (s : Server) (x : Execution) : Prop where
  sweep : s.nextJob? = some (.duty .sweep)
  stored : s.selections.find? x.selection.station x.selection.address = some x.selection
  expired : x.selection.created + s.options.selectTimeout ≤ s.now
  waits : s.Awaits x

/-- Only the sweep lets selections expire. -/
theorem Visited.expiries_moves (h : s.Visited) {s' : Server} (hm : Moves {d | d.IsIdle} s s')
    (g : Selection) : expiries g s'.journal = expiries g s.journal := by
  refine (hm.induction (P := fun u => u.Visited ∧ expiries g u.journal = expiries g s.journal)
    (fun {_ _ d} hd hm hu => ⟨hu.1.move hm, ?_⟩) ⟨h, rfl⟩).2
  obtain ⟨events, hrec, -⟩ := hm.history hu.1.chronicled.keyed
  rw [hrec.expiries_eq _ g, hu.2]
  rintro rfl
  exact hd

/-- The sweep in one update. -/
theorem sweep_eq {s' : Server} (hm : Move (.work (some (.duty .sweep))) s s') :
    ∃ e : Executor Job, e.running = true ∧ s' = { s with executor := e }.dropExpired := by
  generalize hd : Deed.work (some (.duty .sweep)) = d at hm
  cases hm with
  | @take _ task e h =>
    obtain ⟨hrun, -, -, -, -, -, he⟩ := (Executor.next?_eq_some_iff ..).mp h
    rw [← Deed.work.inj hd]
    exact ⟨_, (Executor.running_launch ..).trans (he.trans hrun), rfl⟩
  | _ => cases hd

/-- The sweep lets every expired selection expire that is stored. -/
theorem Visited.hasExpired_of_sweep (h : s.Visited) {s' : Server}
    (hm : Move (.work (some (.duty .sweep))) s s')
    (hfind : s.selections.find? g.station g.address = some g)
    (hexp : g.created + s.options.selectTimeout ≤ s.now) : s'.HasExpired g := by
  obtain ⟨e, hrun, rfl⟩ := sweep_eq hm
  obtain ⟨e', tasks, hdrop, -⟩ := dropExpired_eq (s := { s with executor := e }) hrun
  have hmem : g ∈ s.selections.expired s.now :=
    List.mem_filter.mpr ⟨(SelectionTable.Keyed.mem_values h.chronicled.keyed).mpr hfind,
      h.chronicled.isExpired_iff.mpr hexp⟩
  refine ⟨s.now, ?_⟩
  rw [hdrop]
  refine List.mem_append_left _ (List.mem_map.mpr ⟨g, ?_, rfl⟩)
  exact List.mem_reverse.mpr (Selection.mem_byConnection.mpr hmem)

/-- An execution is older than the expiry of the selection that it consumed. -/
theorem Visited.earlier_of_expired (h : s.Visited) {later journal : List Entry}
    (hj : s.journal = later ++ journal) (hx : x.IsIn s.journal) {u : Int}
    (hexp : ⟨u, .ended x.selection .expired⟩ ∈ journal) :
    ∃ y : Execution, y.IsIn journal ∧ x = y.later later := by
  rcases (hj ▸ hx).of_append with hearlier | ⟨before, -, hbefore⟩
  · exact hearlier
  · exfalso
    -- otherwise the selection stood when the execution was confirmed, though it had expired
    have hmem : ⟨u, .ended x.selection .expired⟩ ∈ x.older := by
      have hall := List.mem_append_right before hexp
      rw [hbefore] at hall
      exact (List.mem_cons.mp hall).resolve_left fun he => by cases (Entry.mk.inj he).2
    have hsplit : s.journal = (x.newer ++ [x.terminated, x.confirmed]) ++ x.older := by
      rw [hx.journal, List.append_assoc]
      rfl
    exact h.not_standing_of_expired hsplit hmem hx.stands

/-- A move that lets a selection expire terminates no execution. -/
theorem Justifies.earlier_of_expired {events : List Event} (h : s.Justifies events)
    (hx : x.IsIn (events.map (Entry.mk s.now) ++ s.journal)) (hexp : .ended g .expired ∈ events) :
    ∃ y : Execution, y.IsIn s.journal ∧ x = y.later (events.map (Entry.mk s.now)) := by
  rcases hx.of_append with hearlier | ⟨before, hevents, -⟩
  · exact hearlier
  · exfalso
    have hmem : x.terminated ∈ events.map (Entry.mk s.now) :=
      hevents ▸ List.mem_append_right _ List.mem_cons_self
    obtain ⟨e, he, hterminated⟩ := List.mem_map.mp hmem
    obtain ⟨-, rfl⟩ := Entry.mk.inj hterminated
    obtain ⟨⟨rest, rfl, hquiet⟩, -⟩ := h.concluded he hx.concluded?
    -- a move that terminates an execution records nothing else but quiet events
    rcases List.mem_append.mp hexp with hexp | hexp
    · cases hquiet _ hexp
    · simp at hexp

/-- A move that lets a selection expire records its expiry. -/
theorem Visited.records_expiry (h : s.Visited) {s' : Server} {d : Deed} (hm : Move d s s')
    (hbefore : ¬ s.HasExpired g) (hafter : s'.HasExpired g) :
    ∃ events, s.Records d s' events ∧ s.Justifies events ∧ .ended g .expired ∈ events := by
  obtain ⟨u, hexpired⟩ := hafter
  obtain ⟨events, hrec, hjust⟩ := hm.history h.chronicled.keyed
  refine ⟨events, hrec, hjust, ?_⟩
  rw [hrec.journal, List.mem_append] at hexpired
  rcases hexpired with hnew | hold
  · obtain ⟨e, he, heq⟩ := List.mem_map.mp hnew
    rw [← (Entry.mk.inj heq).2]
    exact he
  · exact absurd ⟨u, hold⟩ hbefore

/-- A sweep that lets the consumed selection of an execution expire comes while the release
waits. -/
theorem Visited.awaits_of_swept (h : s.Visited) {s' s'' : Server}
    (hrun : s.executor.running = true) (hm : Move (.work (some (.duty .sweep))) s s')
    (hrest : Moves Set.univ s' s'') (hx : x.IsIn s''.journal) (hbefore : ¬ s.HasExpired x.selection)
    (hafter : s'.HasExpired x.selection) :
    s.selections.find? x.selection.station x.selection.address = some x.selection ∧
      x.selection.created + s.options.selectTimeout ≤ s.now ∧ s.Awaits x := by
  obtain ⟨events, hrec, hjust, hevent⟩ := h.records_expiry hm hbefore hafter
  obtain ⟨u, hexpired⟩ := hafter
  obtain ⟨hfind, hexp⟩ := hjust.ended hevent
  obtain ⟨later, hlater⟩ := hrest.journal
  obtain ⟨y, hy, rfl⟩ :=
    ((h.move hm).moves hrest).earlier_of_expired hlater.symm hx hexpired
  obtain ⟨z, hz, rfl⟩ := hjust.earlier_of_expired (hrec.journal ▸ hy) hevent
  refine ⟨hfind, h.chronicled.isExpired_iff.mp (hexp rfl), ?_⟩
  -- had the release done its work, the selection would not be stored
  rcases h.release_waits hz hrun with hwaits | hreleased
  · exact hwaits
  · exact absurd rfl (hreleased.2 _ hfind)

/-- A step lets a selection expire by a sweep, which finds the selection stored and expired. -/
theorem Visited.sweeps_of_step (h : s.Visited) {i : Input} (hbefore : ¬ s.HasExpired g)
    (hafter : (s.step i).HasExpired g) :
    i = .work ∧ s.nextJob? = some (.duty .sweep) ∧ ∃ s₁ s₂,
      s₁.Visited ∧ Move (.work (some (.duty .sweep))) s₁ s₂ ∧ Moves Set.univ s₂ (s.step i) ∧
      s₁.now = s.now ∧ s₁.selections = s.selections ∧ s₁.executor = s.executor ∧
      ¬ s₁.HasExpired g ∧ s₂.HasExpired g := by
  have hidle {u u' : Server} (hu : u.Visited) (hm : Moves {d | d.IsIdle} u u') :
      u'.HasExpired g ↔ u.HasExpired g := by
    rw [HasExpired, HasExpired, ← expiries_pos_iff, ← expiries_pos_iff, hu.expiries_moves hm]
  by_cases hi : i = .work
  · subst hi
    have hstep : s.step .work = s.work?.getD s := rfl
    rw [hstep] at hafter ⊢
    cases hw : s.work? with
    | none =>
      rw [hw] at hafter
      exact absurd hafter hbefore
    | some s' =>
      rw [hw] at hafter
      obtain ⟨s₁, s₂, hnote, htake, hrest, hnow, hsel, hexec⟩ := work?_cases h.wellFormed hw
      have h₁ := h.moves hnote
      have hbefore₁ := (hidle h (idly hnote)).not.mpr hbefore
      have hafter₂ := (hidle (h₁.move htake) (hrest.mono fun _ hd => hd.isIdle)).mp hafter
      -- any other job leaves the expiries as they are
      have hjob : s.nextJob? = some (.duty .sweep) := by
        by_contra hne
        obtain ⟨events, hrec, -⟩ := htake.history h₁.chronicled.keyed
        have heq := hrec.expiries_eq (fun hd => hne (Deed.work.inj hd)) g
        have hpos := expiries_pos_iff.mpr hafter₂
        exact hbefore₁ (expiries_pos_iff.mp (heq ▸ hpos))
      rw [hjob] at htake
      exact ⟨rfl, hjob, s₁, s₂, h₁, htake, hrest.mono (Set.subset_univ _), hnow, hsel, hexec,
        hbefore₁, hafter₂⟩
  · exact absurd ((hidle h (step_moves h.wellFormed hi)).mp hafter) hbefore

/-- If the consumed selection of an execution has expired, a sweep overtook the release. -/
theorem Visited.exists_overtakes (h : s.Visited) (hstart : ¬ s.HasExpired x.selection)
    (hx : x.IsIn (s.run inputs).journal) (hend : (s.run inputs).HasExpired x.selection) :
    ∃ before after, inputs = before ++ .work :: after ∧ (s.run before).Overtakes x := by
  obtain ⟨before, i, after, rfl, hnot, hexp⟩ :=
    exists_step (P := fun u => u.HasExpired x.selection) hstart hend
  have hs := h.moves (h.moves_run before)
  obtain ⟨rfl, hjob, s₁, s₂, h₁, hm, hrest, hnow, hsel, hexec, hbefore, hafter⟩ :=
    hs.sweeps_of_step hnot hexp
  have hrun : s₁.executor.running = true := by
    obtain ⟨task, e, hnext, -⟩ := next?_of_nextJob? hjob
    rw [hexec]
    exact ((Executor.next?_eq_some_iff ..).mp hnext).1
  rw [run_append, run_cons] at hx
  obtain ⟨hfind, htimeout, t, ht, hxt⟩ := h₁.awaits_of_swept hrun hm
    (hrest.trans ((hs.step .work).moves_run after)) hx hbefore hafter
  -- noting that the sweep is late changes none of the clock, the selections and the queue
  refine ⟨before, after, rfl, hjob, hsel ▸ hfind, ?_, t, hexec ▸ ht, hxt⟩
  rwa [← h₁.chronicled.timeout, hsel, hs.chronicled.timeout, hnow] at htimeout

/-- A sweep that overtakes the release of an execution lets the consumed selection expire. -/
theorem Visited.hasExpired_of_overtakes (h : s.Visited) (hov : s.Overtakes x) :
    (s.step .work).HasExpired x.selection := by
  obtain ⟨task, e, hnext, -⟩ := next?_of_nextJob? hov.sweep
  have hwork := (work?_eq hnext).2
  obtain ⟨s₁, s₂, hnote, htake, hrest, hnow, hsel, -⟩ := work?_cases h.wellFormed hwork
  rw [hov.sweep] at htake
  have h₁ := h.moves hnote
  obtain ⟨u, hexp⟩ : s₂.HasExpired x.selection := by
    refine h₁.hasExpired_of_sweep htake (hsel ▸ hov.stored) ?_
    rw [← h₁.chronicled.timeout, hsel, h.chronicled.timeout, hnow]
    exact hov.expired
  refine ⟨u, ?_⟩
  show _ ∈ (s.work?.getD s).journal
  rw [hwork]
  exact hrest.journal.subset hexp

/-- The consumed selection of an execution expires exactly when a sweep overtakes the release. -/
theorem Visited.hasExpired_iff (h : s.Visited) (hstart : ¬ s.HasExpired x.selection)
    (hx : x.IsIn (s.run inputs).journal) :
    (s.run inputs).HasExpired x.selection ↔
      ∃ before after, inputs = before ++ .work :: after ∧ (s.run before).Overtakes x := by
  refine ⟨h.exists_overtakes hstart hx, ?_⟩
  rintro ⟨before, after, rfl, hov⟩
  have hs := h.moves (h.moves_run before)
  obtain ⟨u, hexp⟩ := hs.hasExpired_of_overtakes hov
  refine ⟨u, ?_⟩
  rw [run_append, run_cons]
  exact ((hs.step .work).moves_run after).journal.subset hexp

/-- A sweep that overtakes a release is late, unless the execute came within the delay of the
release before the selection expired. -/
theorem Overtakes.late (h : s.Overtakes x) {task : Task Job} {e : Executor Job}
    (hnext : s.executor.next? s.now = some (task, e)) {d : Int} (hdue : task.due = .timed d) :
    x.selection.created + s.options.selectTimeout ≤ x.time + releaseDelay + (s.now - d) := by
  obtain ⟨t, ht, hxt⟩ := h.waits
  have hqueue := ((Executor.next?_eq_some_iff ..).mp hnext).2.2.1
  rw [hqueue] at ht
  -- the task that is taken is due no later than the release that waits
  have hle : d ≤ x.time + releaseDelay := by
    rcases List.mem_cons.mp ht with rfl | ht
    · exact Int.le_of_eq (Due.timed.inj (hdue.symm.trans hxt.1))
    · rcases Executor.next?_least hnext ht with hlt | ⟨heq, -⟩
      · rw [hdue, hxt.1] at hlt
        exact Int.le_of_lt hlt
      · exact Int.le_of_eq (Due.timed.inj (hdue.symm.trans (heq.trans hxt.1)))
  have hexp := h.expired
  omega

/-! ## Who is told -/

/-- Told are those whose selections have expired. -/
theorem hasExpired_of_jobs {options : Options} {transport : Transport} {now : Int}
    (h : Server.new options transport now = .ok s) {u : Int}
    (hjob : (u, .unselect g) ∈ s.jobs inputs) :
    g.created + options.selectTimeout ≤ u ∧ (s.run inputs).HasExpired g := by
  have hs : s.Visited := .new h
  have hoptions : s.options = options := by rw [new_eq_ok h]; rfl
  obtain ⟨before, after, rfl, hnext, rfl⟩ := mem_jobs hjob
  have hv := hs.moves (hs.moves_run before)
  have hwaits : 0 < (s.run before).awaiting g := by
    obtain ⟨task, e, hnext, hlaunch⟩ := next?_of_nextJob? hnext
    have hqueue := ((Executor.next?_eq_some_iff ..).mp hnext).2.2.1
    refine List.countP_pos_iff.mpr ⟨task, hqueue ▸ List.mem_cons_self, ?_⟩
    rw [Executor.body_of_launch hlaunch]
    exact beq_self_eq_true g
  -- the task that tells the holder is in the books
  have hbooks := ((books_new h g).run hs before).le
  have hpos : 0 < expiries g (s.run before).journal := by omega
  obtain ⟨u, hexp⟩ := expiries_pos_iff.mp hpos
  refine ⟨?_, u, ?_⟩
  · have htimeout := hv.timeout_le hexp
    rw [(hs.moves_run before).options_eq, hoptions] at htimeout
    exact Int.le_trans htimeout (hv.chronicled.past _ hexp)
  · rw [run_append]
    exact (hv.moves_run _).journal.subset hexp

/-- While the executor runs, those whose selections have expired are told or wait to be told. -/
theorem told_of_hasExpired {options : Options} {transport : Transport} {now : Int}
    (h : Server.new options transport now = .ok s)
    (hrun : (s.run inputs).executor.running = true) (hexp : (s.run inputs).HasExpired g) :
    (∃ u, (u, .unselect g) ∈ s.jobs inputs) ∨
      ∃ t ∈ (s.run inputs).executor.queue, t.work = .once (.unselect g) := by
  have hs : s.Visited := .new h
  have hbooks := ((books_new h g).run hs inputs).eq hrun
  have hpos := expiries_pos_iff.mpr hexp
  have hjob {job : Job} (htells : job.tells g = true) : job = .unselect g := by
    cases job with
    | unselect held => rw [eq_of_beq htells]
    | _ => cases htells
  by_cases htold : 0 < s.told inputs g
  · obtain ⟨⟨u, job⟩, hmem, htells⟩ := List.countP_pos_iff.mp htold
    exact .inl ⟨u, hjob htells ▸ hmem⟩
  · obtain ⟨t, ht, htells⟩ := List.countP_pos_iff.mp
      (show 0 < (s.run inputs).awaiting g by omega)
    have hroutine := (hs.moves (hs.moves_run inputs)).wellFormed.routine t ht
    refine .inr ⟨t, ht, ?_⟩
    -- periodic work is a duty, and duties tell nobody
    cases hwork : t.work with
    | once job =>
      rw [hwork] at htells
      obtain rfl : job = .unselect g := hjob htells
      rfl
    | periodic chain interval job =>
      rw [hwork] at hroutine htells
      obtain ⟨duty, rfl⟩ := hroutine
      cases htells

/-- **Unselect.** In every run of a new server, the holder of a selection is told at most once that
the selection has expired, by an activation termination with the select bit, and not before the
timeout has passed. Told are those whose selections the journal says have expired. The selection
that an execution consumed is among them exactly when a sweep overtook the release, which a sweep
that is not late does only if the execute came no earlier than the delay of the release before the
selection expired. -/
theorem unselect_unexecuted {options : Options} {transport : Transport} {now : Int}
    (h : Server.new options transport now = .ok s) (inputs : List Input) :
    (∀ g : Selection, s.told inputs g ≤ 1) ∧
    (∀ (u : Int) (g : Selection), (u, .unselect g) ∈ s.jobs inputs →
      g.created + options.selectTimeout ≤ u ∧ (s.run inputs).HasExpired g ∧
        ∃ t, ⟨t, .granted g⟩ ∈ (s.run inputs).journal) ∧
    (∀ (before after : List Input) (g : Selection), inputs = before ++ .work :: after →
      (s.run before).nextJob? = some (.unselect g) → ∃ f, g.IsToldBy f ∧
        (s.run (before ++ [.work])).journal.head? =
          some ⟨(s.run before).now, .sent (.direct g.connection f)⟩) ∧
    ((s.run inputs).executor.running = true → ∀ g, (s.run inputs).HasExpired g →
      (∃ u, (u, .unselect g) ∈ s.jobs inputs) ∨
        ∃ t ∈ (s.run inputs).executor.queue, t.work = .once (.unselect g)) ∧
    (∀ x : Execution, x.IsIn (s.run inputs).journal →
      (∃ g, x.IsUnder options.selectTimeout g) ∧
      ((s.run inputs).HasExpired x.selection ↔
        ∃ before after, inputs = before ++ .work :: after ∧ (s.run before).Overtakes x)) ∧
    (∀ (before : List Input) (x : Execution) (task : Task Job) (e : Executor Job) (d : Int),
      (s.run before).Overtakes x →
      (s.run before).executor.next? (s.run before).now = some (task, e) → task.due = .timed d →
      x.selection.created + options.selectTimeout ≤
        x.time + releaseDelay + ((s.run before).now - d)) := by
  have hs : s.Visited := .new h
  have hoptions (before : List Input) : (s.run before).options = options := by
    rw [(hs.moves_run before).options_eq, new_eq_ok h]
    rfl
  refine ⟨fun g => ?_, fun u g hjob => ?_, fun before after g _ hnext => ?_,
    fun hrun g hexp => told_of_hasExpired h hrun hexp,
    fun x hx => ⟨hoptions inputs ▸ (hs.moves (hs.moves_run inputs)).exists_isUnder hx,
      hs.hasExpired_iff ?_ hx⟩,
    fun before x task e d hov hnext hdue => ?_⟩
  · -- as often as the worker tells, a selection has expired, and that happens once at most
    have hbooks := ((books_new h g).run hs inputs).le
    have hone := (hs.moves (hs.moves_run inputs)).expiries_le_one g
    omega
  · obtain ⟨htimeout, hexp⟩ := hasExpired_of_jobs h hjob
    obtain ⟨v, hmem⟩ := hexp
    exact ⟨htimeout, ⟨v, hmem⟩, (hs.moves (hs.moves_run inputs)).granted_of_expired hmem⟩
  · rw [run_append]
    exact step_unselect hnext
  · -- nothing has expired in the journal of a new server
    rintro ⟨u, hexp⟩
    rw [new_eq_ok h] at hexp
    cases List.mem_singleton.mp hexp
  · rw [← hoptions before]
    exact hov.late hnext hdue

end Server

namespace Sample

/-- The client of the sample site executes 50 ms before its selection expires. The worker takes both
duties at that instant, and then one more task. -/
def slow : List Input := setUp ++ [select, .pass 950, execute, .pass 50, .work, .work, .work]

/-- The execution of the slow client. -/
def slowExecution : Execution where
  time := 950
  connection := client
  message := command false
  selection := grant 0
  newer := (site.run slow).journal.take 2
  older := (site.run slow).journal.drop 4

end Sample

namespace Server

/-- The slow client is told that its selection has expired, though it has executed. -/
theorem sample_told_though_executed :
    Sample.slowExecution.IsIn (Sample.site.run Sample.slow).journal ∧
      (1000, .unselect (Sample.grant 0)) ∈ Sample.site.jobs Sample.slow ∧
      Sample.site.told Sample.slow (Sample.grant 0) ≤ 1 ∧
      ∃ before after, Sample.slow = before ++ .work :: after ∧
        (Sample.site.run before).Overtakes Sample.slowExecution := by
  have hunselect := unselect_unexecuted Sample.new_site Sample.slow
  have hx : Sample.slowExecution.IsIn (Sample.site.run Sample.slow).journal :=
    ⟨rfl, rfl, rfl, rfl, rfl, rfl⟩
  have hjob : (1000, .unselect (Sample.grant 0)) ∈ Sample.site.jobs Sample.slow := by
    decide +kernel
  obtain ⟨-, hexpired, -⟩ := hunselect.2.1 1000 (Sample.grant 0) hjob
  exact ⟨hx, hjob, hunselect.1 (Sample.grant 0), (hunselect.2.2.2.2.1 _ hx).2.mp hexpired⟩

end Server

end Telecontrol
