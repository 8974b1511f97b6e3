import Telecontrol.Proofs.Pacing
import Telecontrol.Proofs.Spacing

/-! # The pace of reports and timers

The cyclic reports of a point are at least its report interval apart, and so are the calls of its
timer callback by the timer interval, whenever the duties get round to the point. What has been done
is all that the marks of the point tell: a mark is the instant at which the point was last served,
or that at which it was made. So a duty that cannot serve the point loses nothing, and the first
one that can serve it does so if an interval has passed. A call that was deferred waits until the
worker comes to it, and then finds the very point for which it was deferred, or nothing.

This is what holds of points that stations on the roster list, as long as only the server moves the
marks and callbacks are modest.

Main statement: `Server.pace_kept`. -/

namespace Telecontrol

/-- A cyclic report is asked for when its interval has passed, as long as mark and interval fit. -/
theorem Point.isAskedFor_periodic_iff {p : Point} (hfits : Fits p.reportedAt p.reportInterval)
    (now : Int) : p.isAskedFor .periodic now = true ↔
      p.type.isMonitoring = true ∧ Passed p.reportedAt p.reportInterval now := by
  show (p.type.isMonitoring && isDue p.nextReport? now) = true ↔ _
  rw [Bool.and_eq_true]
  exact and_congr_right fun _ => (timed_deadline? ..).punctual hfits now

/-- An input **polls** a point when it asks a station that lists the point for cyclic reports, while
frames can be sent. -/
def Input.Polls (s : Server) (i : PointId) (inp : Input) : Prop :=
  s.canSend = true ∧ ∃ ca, inp.asks? s = some ca ∧ s.plant.attends ca i = true

/-- An input **inspects** the timer of a point when the worker sweeps while some station on the
roster lists the point. -/
def Input.Inspects (s : Server) (i : PointId) (inp : Input) : Prop :=
  inp = .work ∧ s.nextJob? = some (.duty .sweep) ∧ s.plant.attends globalAddress i = true

namespace Server

open Point (Fits Passed)

variable {s u : Server} {h : Handle} {i : PointId} {p q : Point} {report timer : UInt64}
  {before inputs : List Input} {inp : Input}

/-- A report goes out when the point is polled and its interval has passed. -/
theorem reportsBy_iff (hp : s.point? i = some p) (hfits : Fits p.reportedAt p.reportInterval) :
    s.reportsBy i inp = true ↔ p.type.isMonitoring = true ∧ inp.Polls s i ∧
      Passed p.reportedAt p.reportInterval s.now := by
  have hnow (ca : CommonAddress) : s.reportsNow ca i = true ↔ (s.canSend = true ∧
      s.plant.attends ca i = true) ∧ p.type.isMonitoring = true ∧
        Passed p.reportedAt p.reportInterval s.now := by
    rw [reportsNow, hp, Option.any_some, Bool.and_eq_true, Bool.and_eq_true,
      Point.isAskedFor_periodic_iff hfits]
  rw [reportsBy, Option.any_eq_true]
  constructor
  · rintro ⟨ca, hasks, hby⟩
    obtain ⟨⟨hsend, hattends⟩, hmon, hpassed⟩ := (hnow ca).mp hby
    exact ⟨hmon, ⟨hsend, ca, hasks, hattends⟩, hpassed⟩
  · rintro ⟨hmon, ⟨hsend, ca, hasks, hattends⟩, hpassed⟩
    exact ⟨ca, hasks, (hnow ca).mpr ⟨⟨hsend, hattends⟩, hmon, hpassed⟩⟩

/-- A call is deferred when the timer is inspected and its interval has passed. -/
theorem timesBy_iff (hp : s.point? i = some p) (hfits : Fits p.timerAt p.timerInterval) :
    s.timesBy i inp = true ↔ inp.Inspects s i ∧ Passed p.timerAt p.timerInterval s.now := by
  have hdue : Point.isDue p.nextTimer? s.now = true ↔ Passed p.timerAt p.timerInterval s.now :=
    (Point.timed_deadline? ..).punctual hfits s.now
  cases inp with
  | work =>
    rw [timesBy, timesNow, hp, Option.any_some, Bool.and_eq_true, Bool.and_eq_true,
      decide_eq_true_eq, hdue, Input.Inspects, and_assoc, and_assoc]
    exact (and_iff_right rfl).symm
  | _ =>
    constructor
    · intro hby
      cases hby
    · rintro ⟨⟨hwork, -⟩, -⟩
      cases hwork

/-! ## Runs that spare a point -/

/-- A run **spares** a point when it attaches none but modest callbacks, only the server moves the
marks of the point, its intervals stay as they are and fit with the marks, the clock is a number of
64 bits, and fewer than 2^32 points are ever made. -/
structure Spares (s : Server) (i : PointId) (report timer : UInt64) (inputs : List Input) :
    Prop where
  modest : ∀ inp ∈ inputs, inp.IsModest
  unmarked : ∀ inp ∈ inputs, ¬ inp.Marks i
  intervals : ∀ {before p}, before <+: inputs → (s.run before).point? i = some p →
    p.reportInterval = report ∧ p.timerInterval = timer ∧
      Fits p.reportedAt report ∧ Fits p.timerAt timer
  start : 0 ≤ s.now
  clock : (s.run inputs).now < 2 ^ 64
  few : (s.run inputs).plant.points.points.size < 2 ^ 32

/-- A run spares a point whose continuation does. -/
theorem Spares.shorten (hsp : s.Spares i report timer inputs) (hs : s.Visited)
    (hbefore : before <+: inputs) : s.Spares i report timer before := by
  obtain ⟨rest, rfl⟩ := hbefore
  have hv := hs.moves (hs.moves_run before)
  have hm := hv.moves_run rest
  have hclock := hsp.clock
  have hfew := hsp.few
  rw [run_append] at hclock hfew
  exact {
    modest := fun inp hinp => hsp.modest inp (List.mem_append_left rest hinp)
    unmarked := fun inp hinp => hsp.unmarked inp (List.mem_append_left rest hinp)
    intervals := fun hearlier => hsp.intervals (hearlier.trans (List.prefix_append ..))
    start := hsp.start
    clock := Int.lt_of_le_of_lt hm.now_le hclock
    few := Nat.lt_of_le_of_lt (hv.issued_moves (h := default) hm).1 hfew }

/-- One step less. -/
theorem Spares.init (hsp : s.Spares i report timer (before ++ [inp])) (hs : s.Visited) :
    s.Spares i report timer before := hsp.shorten hs (List.prefix_append ..)

/-! ## New points -/

/-- A point is **fresh** when it was made just now with its handle, at a tame server. -/
structure Fresh (u : Server) (h : Handle) (i : PointId) (p : Point) : Prop where
  tame : u.Tame
  resolve : u.plant.points.resolve? h = some i
  point : u.point? i = some p
  reported : p.reportedAt = clockCount u.now
  timed : p.timerAt = clockCount u.now
  idle : u.timerCalls h = 0

namespace Fresh

variable (hf : u.Fresh h i p)
include hf

/-- The state before an input of a tame run is visited. -/
theorem visited : u.Visited := hf.tame.reachable.visited

/-- The handle belongs to the point at all times. -/
theorem belongs (hlt : (u.run inputs).plant.points.points.size < 2 ^ 32) :
    (u.run inputs).plant.Belongs h i :=
  (hf.visited.lasts hf.resolve (hf.visited.moves_run inputs)).belongs hlt

end Fresh

/-- A point that is made is fresh. -/
theorem Tame.fresh (hs : s.Tame) {id : StationId} {spec : PointSpec} {r : Plant}
    (ha : s.plant.addPoint id s.now spec = .ok (r, h))
    (hlt : s.plant.points.points.size < 2 ^ 32) :
    (s.step (.addPoint id spec)).Fresh h s.plant.points.points.size
      (.ofSpec (s.plant.station id).address s.now spec) := by
  have htame : (s.step (.addPoint id spec)).Tame := hs.step trivial
  have hstep : s.step (.addPoint id spec) = { s with plant := r } := by
    show s.orSame (s.addPoint id spec) = _
    rw [addPoint, ha]
    rfl
  obtain ⟨-, hresolve, hpoint⟩ := hs.reachable.visited.addPoint_fields hlt ha
  -- both marks of a new point are the present
  rw [hstep] at htame ⊢
  exact ⟨htame, hresolve, hpoint, rfl, rfl, hs.timerCalls_addPoint hlt ha⟩

/-! ## The pace of a fresh point -/

/-- The jobs of a run and those of one more step. -/
theorem jobs_concat (s : Server) (before : List Input) (inp : Input) :
    s.jobs (before ++ [inp]) = s.jobs before ++ (inp.job? (s.run before)).toList := by
  induction before generalizing s with
  | nil => exact List.append_nil _
  | cons first rest ih =>
    rw [List.cons_append, jobs, ih, jobs, List.append_assoc]
    rfl

/-- How many calls of a timer callback the worker has done in a run. -/
def called (s : Server) (h : Handle) (inputs : List Input) : Nat :=
  (s.jobs inputs).countP fun j => j.2 = .pointTimer h

/-- How many calls of a timer callback were deferred in a run. -/
def deferred (s : Server) (h : Handle) (inputs : List Input) : Nat :=
  (s.instants (callsIn h) inputs).length

/-- How the **pace** of a fresh point stands after a run: the point is there, its marks are the last
instants of its reports and calls, which are spaced, and the calls that wait are those that were
deferred and are not done. -/
structure Pace (u : Server) (h : Handle) (i : PointId) (p : Point) (report timer : UInt64)
    (before : List Input) (q : Point) : Prop where
  point : (u.run before).point? i = some q
  same : p.SameAs q
  reports : Spaced (reportsIn i) report q.reportedAt u before
  calls : Spaced (callsIn h) timer q.timerAt u before
  ledger : u.called h before + (u.run before).timerCalls h ≤ u.deferred h before
  settled : .shutDown ∉ before →
    u.called h before + (u.run before).timerCalls h = u.deferred h before

section Step

variable (hpace : u.Pace h i p report timer before q) (hf : u.Fresh h i p)
  (hsp : u.Spares i report timer (before ++ [inp]))
include hpace hf hsp

/-- What one more step does about the reports. -/
theorem Pace.reports_step :
    (u.run before).reportsIn i inp = (if (u.run before).reportsBy i inp then 1 else 0) ∧
    ((u.run before).step inp).plant.reportedAt? i = some
      (if (u.run before).reportsBy i inp then clockCount (u.run before).now else q.reportedAt) ∧
    ((u.run before).reportsBy i inp = true ↔ p.type.isMonitoring = true ∧
      inp.Polls (u.run before) i ∧
      Overdue report (u.run before).now (u.now :: u.instants (reportsIn i) before)) := by
  have hsp' := hsp.init hf.visited
  have hmem : inp ∈ before ++ [inp] := List.mem_concat_self
  obtain ⟨rfl, -, hfits, -⟩ := hsp'.intervals (List.prefix_refl _) hpace.point
  obtain ⟨hreports, hmark⟩ := (hf.tame.run hsp'.modest).reports_step hsp'.few
    (hsp.modest inp hmem) (hsp.unmarked inp hmem) hpace.point
  refine ⟨hreports, hmark, ?_⟩
  rw [reportsBy_iff hpace.point hfits, hpace.same.type,
    hpace.reports.passed_iff hsp'.start hsp'.clock]

/-- What one more step does about the calls. -/
theorem Pace.calls_step :
    (u.run before).callsIn h inp = (if (u.run before).timesBy i inp then 1 else 0) ∧
    ((u.run before).step inp).plant.timerAt? i = some
      (if (u.run before).timesBy i inp then clockCount (u.run before).now else q.timerAt) ∧
    ((u.run before).timesBy i inp = true ↔ inp.Inspects (u.run before) i ∧
      Overdue timer (u.run before).now (u.now :: u.instants (callsIn h) before)) := by
  have hsp' := hsp.init hf.visited
  have hmem : inp ∈ before ++ [inp] := List.mem_concat_self
  obtain ⟨-, rfl, -, hfits⟩ := hsp'.intervals (List.prefix_refl _) hpace.point
  obtain ⟨hcalls, hmark, -⟩ := (hf.tame.run hsp'.modest).calls_step hsp'.few
    (hsp.modest inp hmem) (hsp.unmarked inp hmem) hpace.point (hf.belongs hsp'.few)
  refine ⟨hcalls, hmark, ?_⟩
  rw [timesBy_iff hpace.point hfits, hpace.calls.passed_iff hsp'.start hsp'.clock]

/-- One more step of a run keeps the pace. -/
theorem Pace.concat : ∃ q', u.Pace h i p report timer (before ++ [inp]) q' := by
  have hsp' := hsp.init hf.visited
  have hmem : inp ∈ before ++ [inp] := List.mem_concat_self
  have htame := hf.tame.run hsp'.modest
  have hstep : u.run (before ++ [inp]) = (u.run before).step inp := u.run_append before [inp]
  have hm := moves_step htame.reachable.visited.wellFormed inp
  have hle : (u.run before).now ≤ (u.run (before ++ [inp])).now := hstep ▸ hm.now_le
  obtain ⟨hreports, hmark, hby⟩ := hpace.reports_step hf hsp
  obtain ⟨hcalls, htime, hby'⟩ := hpace.calls_step hf hsp
  obtain ⟨-, -, hledger, hsettled⟩ := htame.calls_step hsp'.few (hsp.modest inp hmem)
    (hsp.unmarked inp hmem) hpace.point (hf.belongs hsp'.few)
  obtain ⟨q', hq', hsame⟩ := hm.kept hpace.point
  -- the marks that the step has left are those of the point
  have hreported := Option.some.inj ((reportedAt?_of_point? hq').symm.trans hmark)
  have htimed := Option.some.inj ((timerAt?_of_point? hq').symm.trans htime)
  have hcalled : u.called h (before ++ [inp]) =
      u.called h before + (u.run before).callsDone h inp := by
    rw [called, jobs_concat, List.countP_append]
    rfl
  have hdeferred : u.deferred h (before ++ [inp]) =
      u.deferred h before + (u.run before).callsIn h inp := by
    rw [deferred, instants_concat, List.length_append, List.length_replicate]
    rfl
  refine ⟨q', hstep ▸ hq', hpace.same.trans hsame, ?_, ?_, ?_, fun hdown => ?_⟩
  · rw [hreported]
    exact hpace.reports.concat hreports (fun happens => (hby.mp happens).2.2) hle
  · rw [htimed]
    exact hpace.calls.concat hcalls (fun happens => (hby'.mp happens).2) hle
  · have hbefore := hpace.ledger
    rw [hcalled, hdeferred, hstep]
    omega
  · rw [List.mem_append, not_or, List.mem_singleton] at hdown
    have hbefore := hpace.settled hdown.1
    have hnow := hsettled (Ne.symm hdown.2)
    rw [hcalled, hdeferred, hstep]
    omega

end Step

/-- The pace of a fresh point after any run that spares it. -/
theorem Fresh.pace (hf : u.Fresh h i p) (hsp : u.Spares i report timer inputs) :
    ∃ q, u.Pace h i p report timer inputs q := by
  induction inputs using List.reverseRecOn with
  | nil =>
    refine ⟨p, hf.point, .refl p, ?_, ?_, Nat.le_of_eq ?_, fun _ => ?_⟩
    · exact hf.reported ▸ spaced_nil ..
    · exact hf.timed ▸ spaced_nil ..
    · exact (Nat.zero_add _).trans hf.idle
    · exact (Nat.zero_add _).trans hf.idle
  | append_singleton before inp ih =>
    obtain ⟨q, hpace⟩ := ih (hsp.init hf.visited)
    exact hpace.concat hf hsp

/-- What it means that the cyclic reports and the timer of a point **keep their pace** in a run,
with its intervals. -/
structure KeepsPace (u : Server) (h : Handle) (i : PointId) (type : TypeId)
    (report timer : UInt64) (inputs : List Input) : Prop where
  /-- Two reports are an interval apart, and the first one is that far from the creation. -/
  reports_apart : (u.now :: u.instants (reportsIn i) inputs).Pairwise
    fun t t' : Int => t + report.toNat ≤ t'
  /-- At most one report goes out at a time, and that when the point is polled and an interval has
  passed since its creation and since all reports. -/
  reports : ∀ {before inp}, before ++ [inp] <+: inputs → (u.run before).reportsIn i inp ≤ 1 ∧
    ((u.run before).reportsIn i inp = 1 ↔ type.isMonitoring = true ∧ inp.Polls (u.run before) i ∧
      Overdue report (u.run before).now (u.now :: u.instants (reportsIn i) before))
  /-- An inventory does nothing about the point while no connection is active. -/
  muted : ∀ {before}, before ++ [.work] <+: inputs →
    (u.run before).nextJob? = some (.duty .inventory) →
    (∀ c, (u.run before).connections.isActive c = false) →
    (u.run before).reportsIn i .work = 0 ∧
      ((u.run before).step .work).plant.reportedAt? i = (u.run before).plant.reportedAt? i
  /-- An inventory that finds an active connection sends the report that is overdue. -/
  resumed : ∀ {before c}, before ++ [.work] <+: inputs →
    (u.run before).nextJob? = some (.duty .inventory) →
    (u.run before).connections.isActive c = true →
    (u.run before).plant.attends globalAddress i = true → type.isMonitoring = true →
    Overdue report (u.run before).now (u.now :: u.instants (reportsIn i) before) →
    (u.run before).reportsIn i .work = 1
  /-- Two calls are deferred an interval apart, and the first one that far from the creation. -/
  calls_apart : (u.now :: u.instants (callsIn h) inputs).Pairwise
    fun t t' : Int => t + timer.toNat ≤ t'
  /-- At most one call is deferred at a time, and that when the timer is inspected and an interval
  has passed since the creation and since all calls were deferred. -/
  calls : ∀ {before inp}, before ++ [inp] <+: inputs → (u.run before).callsIn h inp ≤ 1 ∧
    ((u.run before).callsIn h inp = 1 ↔ inp.Inspects (u.run before) i ∧
      Overdue timer (u.run before).now (u.now :: u.instants (callsIn h) before))
  /-- The marks are the last of these instants. -/
  marks : ∀ {before}, before <+: inputs →
    (u.run before).plant.reportedAt? i = some (clockCount (u.latest (reportsIn i) before)) ∧
    (u.run before).plant.timerAt? i = some (clockCount (u.latest (callsIn h) before))
  /-- No call is done that was not deferred or was done already, and none is lost unless the server
  is given up. -/
  ledger : ∀ {before}, before <+: inputs →
    u.called h before + (u.run before).timerCalls h ≤ u.deferred h before ∧
      (.shutDown ∉ before →
        u.called h before + (u.run before).timerCalls h = u.deferred h before)
  /-- No call waits when the worker has nothing to do. -/
  served : ∀ {before}, before <+: inputs → (u.run before).executor.running = true →
    (u.run before).executor.next? (u.run before).now = none → (u.run before).timerCalls h = 0
  /-- When the worker comes to a call, the callback of the point is called if the point lives; if
  not, nothing is done, whatever the handle may have been used for in the meantime. -/
  runs : ∀ {before}, before ++ [.work] <+: inputs →
    (u.run before).nextJob? = some (.pointTimer h) → ∃ e : Executor Job,
      (∃ q, (u.run before).plant.points.resolve? h = some i ∧ (u.run before).point? i = some q ∧
        { u.run before with executor := e }.Carries
          ((u.run before).plant.afterCall (u.run before).now .timer i) (q.calls .timer)
          ((u.run before).step .work)) ∨
      (∀ h', (u.run before).plant.points.resolve? h' ≠ some i) ∧
        (u.run before).step .work = { u.run before with executor := e }
  /-- No other handle leads to the point, and the handle to no other point. -/
  owned : ∀ {before}, before <+: inputs → (u.run before).plant.Belongs h i
  /-- The worker does nothing when the executor was stopped. -/
  stopped : ∀ {before}, before <+: inputs → (u.run before).executor.running = false →
    (u.run before).step .work = u.run before

/-- A number that is one or zero, as a test says, and a condition that the test decides. -/
theorem le_one_and_iff {n : Nat} {b : Bool} {c : Prop} (hn : n = if b then 1 else 0)
    (hb : b = true ↔ c) : n ≤ 1 ∧ (n = 1 ↔ c) := by
  rw [hn, ← hb]
  cases b <;> decide

section KeepsPace

variable (hf : u.Fresh h i p)
include hf

/-- An inventory without an active connection leaves the mark where it is. -/
theorem Fresh.muted (hsp : u.Spares i report timer (before ++ [.work]))
    (hjob : (u.run before).nextJob? = some (.duty .inventory))
    (hidle : ∀ c, (u.run before).connections.isActive c = false) :
    (u.run before).reportsIn i .work = 0 ∧
      ((u.run before).step .work).plant.reportedAt? i = (u.run before).plant.reportedAt? i := by
  have hsp' := hsp.init hf.visited
  obtain ⟨q, hpace⟩ := hf.pace hsp'
  obtain ⟨hreports, hmark, hby⟩ := hpace.reports_step hf hsp
  have hnot : (u.run before).reportsBy i .work = false := by
    by_contra hreport
    obtain ⟨-, ⟨hsend, -⟩, -⟩ := hby.mp (Bool.not_eq_false _ ▸ hreport)
    obtain ⟨c, hc⟩ := ((hf.tame.run hsp'.modest).reachable.canSend_iff hjob).mp hsend
    rw [hidle c] at hc
    cases hc
  rw [hnot] at hreports hmark
  exact ⟨hreports, hmark.trans (reportedAt?_of_point? hpace.point).symm⟩

/-- A call finds the point for which it was deferred, or nothing. -/
theorem Fresh.runs (hsp : u.Spares i report timer (before ++ [.work]))
    (hjob : (u.run before).nextJob? = some (.pointTimer h)) : ∃ e : Executor Job,
    (∃ q, (u.run before).plant.points.resolve? h = some i ∧ (u.run before).point? i = some q ∧
      { u.run before with executor := e }.Carries
        ((u.run before).plant.afterCall (u.run before).now .timer i) (q.calls .timer)
        ((u.run before).step .work)) ∨
    (∀ h', (u.run before).plant.points.resolve? h' ≠ some i) ∧
      (u.run before).step .work = { u.run before with executor := e } := by
  have hsp' := hsp.init hf.visited
  obtain ⟨q, hpace⟩ := hf.pace hsp'
  have htame := hf.tame.run hsp'.modest
  have hwell := htame.reachable.visited.wellFormed
  have hbelongs := hf.belongs hsp'.few
  -- whatever the handle resolves to is the point for which the call was deferred, if anything
  cases hi : (u.run before).plant.points.resolve? h with
  | some j =>
    obtain rfl := hbelongs.eq_id hi
    obtain ⟨e, hcalls⟩ := (htame.poised hsp'.few).calls_live hwell hjob hi hpace.point
    exact ⟨e, .inl ⟨q, rfl, hpace.point, hcalls⟩⟩
  | none =>
    obtain ⟨e, hgone⟩ := (htame.poised hsp'.few).calls_gone hwell hjob hi
    refine ⟨e, .inr ⟨fun h' hi' => ?_, hgone⟩⟩
    obtain rfl := hbelongs.eq_handle hi'
    rw [hi'] at hi
    cases hi

/-- A report goes out once or not at all, as it is known from the instants of the reports. -/
theorem Fresh.reports (hsp : u.Spares i report timer (before ++ [inp])) :
    (u.run before).reportsIn i inp ≤ 1 ∧ ((u.run before).reportsIn i inp = 1 ↔
      p.type.isMonitoring = true ∧ inp.Polls (u.run before) i ∧
      Overdue report (u.run before).now (u.now :: u.instants (reportsIn i) before)) := by
  obtain ⟨q, hpace⟩ := hf.pace (hsp.init hf.visited)
  obtain ⟨hin, -, hby⟩ := hpace.reports_step hf hsp
  exact le_one_and_iff hin hby

/-- A call is deferred once or not at all, as it is known from the instants of the calls. -/
theorem Fresh.calls (hsp : u.Spares i report timer (before ++ [inp])) :
    (u.run before).callsIn h inp ≤ 1 ∧ ((u.run before).callsIn h inp = 1 ↔
      inp.Inspects (u.run before) i ∧
      Overdue timer (u.run before).now (u.now :: u.instants (callsIn h) before)) := by
  obtain ⟨q, hpace⟩ := hf.pace (hsp.init hf.visited)
  obtain ⟨hin, -, hby⟩ := hpace.calls_step hf hsp
  exact le_one_and_iff hin hby

/-- The first inventory that finds an active connection polls the point. -/
theorem Fresh.polls (hsp : u.Spares i report timer (before ++ [.work]))
    (hjob : (u.run before).nextJob? = some (.duty .inventory)) {c : ConnectionId}
    (hc : (u.run before).connections.isActive c = true)
    (hlisted : (u.run before).plant.attends globalAddress i = true) :
    Input.work.Polls (u.run before) i := by
  have hsp' := hsp.init hf.visited
  have hsend := ((hf.tame.run hsp'.modest).reachable.canSend_iff hjob).mpr ⟨c, hc⟩
  exact ⟨hsend, globalAddress, if_pos hjob, hlisted⟩

/-- A fresh point keeps its pace in every run that spares it. -/
theorem Fresh.keepsPace (hsp : u.Spares i report timer inputs) :
    u.KeepsPace h i p.type report timer inputs := by
  -- each clause is about a beginning of the run, which spares the point as well
  have hinit {before : List Input} (hbefore : before <+: inputs) :=
    hsp.shorten hf.visited hbefore
  obtain ⟨_, hend⟩ := hf.pace hsp
  exact {
    reports_apart := hend.reports.apart
    reports := fun hbefore => hf.reports (hinit hbefore)
    muted := fun hbefore => hf.muted (hinit hbefore)
    resumed := fun hbefore hjob hc hlisted hmon hover =>
      (hf.reports (hinit hbefore)).2.mpr ⟨hmon, hf.polls (hinit hbefore) hjob hc hlisted, hover⟩
    calls_apart := hend.calls.apart
    calls := fun hbefore => hf.calls (hinit hbefore)
    marks := fun hbefore => by
      obtain ⟨q, hpace⟩ := hf.pace (hinit hbefore)
      rw [reportedAt?_of_point? hpace.point, timerAt?_of_point? hpace.point,
        hpace.reports.mark_eq, hpace.calls.mark_eq]
      exact ⟨rfl, rfl⟩
    ledger := fun hbefore => by
      obtain ⟨q, hpace⟩ := hf.pace (hinit hbefore)
      exact ⟨hpace.ledger, hpace.settled⟩
    served := fun hbefore hrun hnext => by
      have hpoised := (hf.tame.run (hinit hbefore).modest).poised (hinit hbefore).few
      rw [timerCalls_eq, hpoised.timings_eq_nil hrun hnext]
      rfl
    runs := fun hbefore => hf.runs (hinit hbefore)
    owned := fun hbefore => hf.belongs (hinit hbefore).few
    stopped := fun _ hrun => step_work_of_stopped hrun }

end KeepsPace

/-- **The pace of reports and timers.** A point that is made at a tame server keeps its pace from
there on, in every run that spares it: however late the worker comes to a duty, however often the
server is started and stopped, whatever connections come and go, and whether or not the point, its
station or the server is given up in the end. What counts as a report of the point is what the
server says about it when it is asked for cyclic reports, and it is asked about monitoring points
that some station on the roster lists. -/
theorem pace_kept (hs : s.Tame) {id : StationId} {spec : PointSpec} {r : Plant}
    (ha : s.plant.addPoint id s.now spec = .ok (r, h))
    (hsp : (s.step (.addPoint id spec)).Spares s.plant.points.points.size report timer inputs) :
    (s.step (.addPoint id spec)).KeepsPace h s.plant.points.points.size spec.type report timer
      inputs := by
  have hv := (hs.reachable.step (.addPoint id spec)).visited
  have hm := moves_step hs.reachable.visited.wellFormed (.addPoint id spec)
  have hsize := (hs.reachable.visited.issued_moves (h := default) hm).1
  have hnil : ([] : List Input) <+: inputs := ⟨inputs, rfl⟩
  have hfew := (hsp.shorten hv hnil).few
  exact (hs.fresh ha (Nat.lt_of_le_of_lt hsize hfew)).keepsPace hsp

end Server

namespace Sample

/-- The sample site with a station, but without points. -/
def metering : Server := site.run [.addStation 1]

/-- A measured value that is to be reported, and whose timer is to run out, each second and a
half. -/
def meter : PointSpec :=
  { address := 10, type := .M_ME_NC_1, reportInterval := 1500, timerInterval := 1500 }

/-- The first inventory that is due finds no active connection, the next one does; the point is
given up while a call of its timer callback waits. -/
def metered : List Input :=
  [.start, .connection client .opened, .pass 1000, .work, .work, .pass 1000, .work, .work, .work,
    .connection client .activated, .pass 1000, .work, .work, .pass 1000, .work, .work,
    .removePoint 0 10, .work]

/-- The sample site is tame when it has a station but no points. -/
theorem tame_metering : metering.Tame :=
  (Server.Tame.new new_site).run fun _ hinp => List.mem_singleton.mp hinp ▸ trivial

/-- The sample run spares the point that it meters. -/
theorem spares_metered :
    (metering.step (.addPoint 0 meter)).Spares 0 1500 1500 metered where
  modest := by simp [metered, Input.IsModest]
  unmarked := by simp [metered, Input.Marks]
  intervals {before p} hbefore hp := by
    have hall : ∀ b ∈ metered.inits, (((metering.step (.addPoint 0 meter)).run b).point? 0).all
        (fun p => p.reportInterval = 1500 && p.timerInterval = 1500 &&
          Point.Fits p.reportedAt 1500 && Point.Fits p.timerAt 1500) = true := by
      decide +kernel
    have hthis := hall before (List.mem_inits before metered |>.mpr hbefore)
    rw [hp] at hthis
    simpa [and_assoc] using hthis
  start := by decide +kernel
  clock := by decide +kernel
  few := by decide +kernel

end Sample

namespace Server

/-- At the sample site a report that is due after two seconds goes out after three, and two calls
are deferred and done, of which the second one finds nothing. -/
theorem sample_pace_kept :
    let u := Sample.metering.step (.addPoint 0 Sample.meter)
    u.KeepsPace ⟨0, 0⟩ 0 .M_ME_NC_1 1500 1500 Sample.metered ∧
      u.instants (reportsIn 0) Sample.metered = [3000] ∧
      u.instants (callsIn ⟨0, 0⟩) Sample.metered = [2000, 4000] ∧
      u.called ⟨0, 0⟩ Sample.metered = 2 := by
  have hadd : ∃ r, Sample.metering.plant.addPoint 0 Sample.metering.now Sample.meter =
      .ok (r, ⟨0, 0⟩) := ⟨_, rfl⟩
  obtain ⟨r, hadd⟩ := hadd
  refine ⟨pace_kept Sample.tame_metering hadd Sample.spares_metered, ?_, ?_, ?_⟩
  · decide +kernel
  · decide +kernel
  · decide +kernel

end Server

namespace Sample

/-- The sample site with a measured value whose station has left the roster, and with a command that
is to be reported, when two seconds have passed. -/
def neglected : Server := site.run
  [.addStation 1, .keepStation 0, .removeStation 1, .addPoint 0 meter, .addStation 2,
    .addPoint 1 { address := 20, type := .C_SC_NA_1 }, .write 1 (.reportInterval 1500), .start,
    .connection client .activated, .pass 2000]

/-- The sample site with a measured value that the application sends twice, as if it were reported
cyclically, at the instant at which it is made. -/
def insistent : Server := (metering.step (.addPoint 0 meter)).run
  [.start, .connection client .activated, .transmit 0 .periodic, .transmit 0 .periodic]

end Sample

namespace Server

/-- Not every live point keeps its pace. Two points live at the sample site whose intervals have
passed, and the inventory finds an active connection, but it reports neither the point that is not
listed on the roster nor the command, and the sweep defers no call. And the application is not kept
from sending a point under the cause of cyclic reports. -/
theorem overdue_neglected :
    let s := Sample.neglected
    (s.plant.points.resolve? ⟨0, 0⟩ = some 0 ∧ ∃ p, s.point? 0 = some p ∧
      Point.Passed p.reportedAt p.reportInterval s.now ∧
      Point.Passed p.timerAt p.timerInterval s.now) ∧
    (s.plant.points.resolve? ⟨1, 0⟩ = some 1 ∧ ∃ p, s.point? 1 = some p ∧
      Point.Passed p.reportedAt p.reportInterval s.now) ∧
    s.connections.isActive Sample.client = true ∧
    s.nextJob? = some (.duty .inventory) ∧ (s.step .work).cyclicItems = [] ∧
    (s.step .work).nextJob? = some (.duty .sweep) ∧ ((s.step .work).step .work).timings = [] ∧
    ∃ p, Sample.insistent.point? 0 = some p ∧ Sample.insistent.now = p.reportedAt.toNat ∧
      Sample.insistent.reportsOf p = 2 := by
  refine ⟨⟨rfl, _, rfl, ⟨by decide +kernel, by decide +kernel⟩, by decide +kernel,
    by decide +kernel⟩, ⟨rfl, _, rfl, by decide +kernel, by decide +kernel⟩, rfl, rfl, rfl, rfl,
    rfl, _, rfl, rfl, ?_⟩
  decide +kernel

end Server

end Telecontrol
