import Telecontrol.Proofs.Cyclic
import Telecontrol.Proofs.Timers

/-! # The timer of one point

A sweep marks a listed point whose timer has run out and defers a call of its timer callback, to be
done at once. With that it is known what any step does about the time of a point: it sweeps, or it
asks for cyclic reports, or it idles.

Main statements: `Server.ticks_step` (what the step does with which the worker sweeps) and
`Server.time_cases`. -/

namespace Telecontrol

/-- All stations attend to a point when it is listed. -/
theorem Plant.attends_global_iff {p : Plant} {i : PointId} : p.attends globalAddress i = true ↔
    ∃ h ∈ p.listed, p.points.resolve? h = some i := by
  have hasked : p.asked globalAddress = p.roster.entries := by simp [asked]
  rw [attends_iff, hasked]
  constructor
  · rintro ⟨e, he, a, h, hlisted, hi⟩
    refine ⟨h, List.mem_flatMap.mpr ⟨e.2, List.mem_map_of_mem he, ?_⟩, hi⟩
    exact (Table.mem_values ..).mpr ⟨a, hlisted⟩
  · rintro ⟨h, hmem, hi⟩
    obtain ⟨id, hid, hmem⟩ := List.mem_flatMap.mp hmem
    obtain ⟨e, he, rfl⟩ := List.mem_map.mp hid
    obtain ⟨a, hlisted⟩ := (Table.mem_values ..).mp hmem
    exact ⟨e, he, a, h, hlisted, hi⟩

namespace Server

variable {s s' : Server} {h : Handle} {hs : List Handle} {i : PointId} {p : Point} {t : Task Job}

/-! ## A sweep -/

/-- Whether a sweep finds that the timer of a point has run out. -/
def timesNow (s : Server) (i : PointId) : Bool :=
  s.plant.attends globalAddress i && (s.point? i).any fun p => Point.isDue p.nextTimer? s.now

/-- A step **ticks** when it is a sweep: the listed points whose timer has run out are marked, and
one call of the timer callback is deferred for each of them, to be done at once. -/
structure Ticks (s s' : Server) : Prop where
  modest : s.Modest → s'.Modest
  mark : ∀ i, s'.plant.reportedAt? i = s.plant.reportedAt? i
  reports : s'.cyclicItems = s.cyclicItems
  timer : ∀ {i p}, s.point? i = some p →
    s'.plant.timerAt? i = some (if s.timesNow i then clockCount s.now else p.timerAt)
  calls : ∀ h, s'.timerCalls h =
    s.timerCalls h + if h ∈ s.plant.listed ∧ s.plant.hasRunOut s.now h = true then 1 else 0
  joins : ∀ t ∈ s'.timings, t ∈ s.timings ∨ t.due = .immediate ∧
    ∃ h i, t.work = .once (.pointTimer h) ∧ s.plant.points.resolve? h = some i

/-- The calls of timer callbacks that wait are those tasks of the queue. -/
theorem mem_timings : t ∈ s.timings ↔ t ∈ s.executor.queue ∧ t.work.body.isTimer = true :=
  List.mem_filter

/-- The calls for a handle are counted among those that wait. -/
theorem timerCalls_eq (s : Server) (h : Handle) :
    s.timerCalls h = (s.timings.map (·.work)).count (.once (.pointTimer h)) := by
  rw [timerCalls, timings, List.count_eq_countP, List.countP_map, List.count_eq_countP,
    List.countP_map, List.countP_filter]
  refine List.countP_congr fun t _ => ?_
  simp only [Function.comp_apply, Bool.and_eq_true, beq_iff_eq]
  refine ⟨fun hwork => ⟨hwork, ?_⟩, And.left⟩
  rw [hwork]
  rfl

/-- Serving a timer defers no call but the one of its handle. -/
theorem mem_timings_serveTimer (hrun : s.executor.running = true)
    (ht : t ∈ (s.serveTimer h).timings) : t ∈ s.timings ∨ t.due = .immediate ∧
      ∃ i, t.work = .once (.pointTimer h) ∧ s.plant.points.resolve? h = some i := by
  cases hout : s.plant.hasRunOut s.now h with
  | false =>
    rw [serveTimer_of_not hout] at ht
    exact .inl ht
  | true =>
    obtain ⟨i, hi⟩ := Plant.exists_of_hasRunOut hout
    rw [serveTimer_eq hrun hi hout] at ht
    obtain ⟨hqueue, htimer⟩ := mem_timings.mp ht
    rcases Executor.mem_push.mp hqueue with rfl | hold
    · exact .inr ⟨rfl, i, rfl, hi⟩
    · exact .inl (mem_timings.mpr ⟨hold, htimer⟩)

/-- Serving timers adds nothing but immediate calls for points that live. -/
theorem mem_timings_foldl (hrun : s.executor.running = true)
    (ht : t ∈ (hs.foldl serveTimer s).timings) : t ∈ s.timings ∨ t.due = .immediate ∧
      ∃ h i, t.work = .once (.pointTimer h) ∧ s.plant.points.resolve? h = some i := by
  induction hs generalizing s with
  | nil => exact .inl ht
  | cons h rest ih =>
    have hone := timersServed_serveTimer hrun h
    rcases ih hone.running ht with hold | ⟨hdue, h', i, hwork, hi⟩
    · exact (mem_timings_serveTimer hrun hold).imp_right fun ⟨hdue, i, hnew⟩ => ⟨hdue, h, i, hnew⟩
    · exact .inr ⟨hdue, h', i, hwork, hone.resolve? h' ▸ hi⟩

/-- Telling the holders of expired selections bides the time. -/
theorem Bides.dropExpired (s : Server) : s.Bides false s.dropExpired :=
  dropExpired_induction (P := s.Bides false) s (.selections s _) fun u _ _ hu =>
    (hu.trans (.note u rfl)).trans (.defer _ _ rfl)

/-- A sweep marks a point whose timer it finds run out, and no other one. -/
theorem point?_sweep (ho : s.plant.Orderly) (hrun : s.executor.running = true)
    (hp : s.point? i = some p) : s.sweep.point? i =
      some (if s.timesNow i then p.markTimer (clockCount s.now) else p) := by
  have hnow : s.timesNow i = true ↔ (∃ h ∈ s.plant.listed, s.plant.points.resolve? h = some i) ∧
      Point.isDue p.nextTimer? s.now = true := by
    rw [timesNow, hp, Bool.and_eq_true, Plant.attends_global_iff, Option.any_some]
  rw [(sweeps_sweep ho hrun).point, hp, Option.map_some, served]
  simp only [hnow]

/-- Nothing about a point is changed by a sweep but the mark of its timer. -/
theorem map_point?_sweep (ho : s.plant.Orderly) (hrun : s.executor.running = true) {α : Type}
    {f : Point → α} (hf : ∀ (p : Point) time, f (p.markTimer time) = f p) (i : PointId) :
    (s.sweep.point? i).map f = (s.point? i).map f := by
  rw [(sweeps_sweep ho hrun).point, Option.map_map]
  refine Option.map_congr fun p _ => ?_
  show f (s.served _ i p) = f p
  rw [served]
  split
  · exact hf p _
  · rfl

/-- A sweep ticks. -/
theorem ticks_sweep (ho : s.plant.Orderly) (hrun : s.executor.running = true) :
    s.Ticks s.sweep where
  modest hmodest := by
    -- dropping the expired selections comes first and leaves the points alone
    obtain ⟨_, _, hrest⟩ := (timersServed_sweep ho hrun).rest
    refine hmodest.of_callbacks ?_ (map_point?_sweep ho hrun fun _ _ => rfl)
    rw [hrest]
    exact (Bides.dropExpired s).callbacks
  mark := map_point?_sweep ho hrun fun _ _ => rfl
  reports := by
    obtain ⟨_, _, hrest⟩ := (timersServed_sweep ho hrun).rest
    rw [hrest]
    exact (Bides.dropExpired s).reports rfl
  timer {i p} hp := by
    show (s.sweep.point? i).map _ = _
    rw [point?_sweep ho hrun hp]
    split <;> rfl
  calls := (sweeps_sweep ho hrun).calls
  joins t ht := by
    have hplant := (Keeps.dropExpired s).plant
    have hrun' := (Steady.dropExpired s).gains.running.trans hrun
    rw [sweep, serveTimers_eq] at ht
    rw [← hplant, ← (Bides.dropExpired s).timings]
    exact mem_timings_foldl hrun' ht

/-- The step with which the worker sweeps ticks. -/
theorem ticks_step (hs : s.WellFormed) (ho : s.plant.Orderly)
    (hjob : s.nextJob? = some (.duty .sweep)) : s.Ticks (s.step .work) := by
  obtain ⟨executor, journal, hstep, hb, hrun⟩ := exists_step_duty hs hjob
  have ht := ticks_sweep (s := { s with executor, journal }) ho hrun
  have hcalls (h : Handle) : ({ s with executor, journal } : Server).timerCalls h =
      s.timerCalls h := by
    rw [timerCalls_eq, timerCalls_eq, hb.timings]
  have hsweep : s.step .work = ({ s with executor, journal } : Server).sweep := hstep
  rw [hsweep]
  exact ⟨fun hm => ht.modest (hb.modest hm), ht.mark, ht.reports.trans (hb.reports rfl), ht.timer,
    fun h => (ht.calls h).trans (congrArg (· + _) (hcalls h)), fun t hmem =>
      hb.timings ▸ ht.joins t hmem⟩

/-- What a step does about the time of points: it ticks, cycles or idles. -/
theorem time_cases {inp : Input} (kept : Set PointId) (hs : s.WellFormed) (hmodest : s.Modest)
    (ho : s.plant.Orderly) (hkept : ∀ i ∈ kept, i < s.plant.points.points.size)
    (hinp : inp.IsModest) (hmarks : ∀ i ∈ kept, ¬ inp.Marks i) :
    (inp = .work ∧ s.nextJob? = some (.duty .sweep) ∧ s.Ticks (s.step inp)) ∨
    (∃ ca, inp.asks? s = some ca ∧ s.Cycles ca (s.step inp)) ∨
    inp.asks? s = none ∧ (inp = .work → s.nextJob? ≠ some (.duty .sweep)) ∧
      ∃ gone, s.Idles inp.isSending gone kept (s.step inp) ∧ (inp ≠ .shutDown →
        gone.map (·.work) = ((inp.job? s).toList.filter (·.2.isTimer)).map (.once ·.2)) := by
  by_cases hsweep : inp = .work ∧ s.nextJob? = some (.duty .sweep)
  · obtain ⟨rfl, hjob⟩ := hsweep
    exact .inl ⟨rfl, hjob, ticks_step hs ho hjob⟩
  · cases hasks : inp.asks? s with
    | some ca => exact .inr (.inl ⟨ca, rfl, cycles_step hs hmodest ho hasks⟩)
    | none =>
      have hnot : inp = .work → s.nextJob? ≠ some (.duty .sweep) :=
        fun hwork hjob => hsweep ⟨hwork, hjob⟩
      exact .inr (.inr ⟨rfl, hnot, exists_idles hs hmodest hkept hinp hmarks hnot hasks⟩)

end Server

end Telecontrol
