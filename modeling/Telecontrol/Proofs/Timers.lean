import Mathlib.Data.List.Count
import Telecontrol.Proofs.Survey

/-! # Serving the timers of points

The sweep duty goes through the handles that the stations list. A live point whose timer has run out
is marked with the present, and the call of its timer callback is deferred. No two handles that an
orderly plant lists resolve to the same point, so a point is looked at once and its timer is served
at most once in a sweep.

Main statements: `Server.timersServed_serveTimer` (one handle), `Server.timersServed_foldl` (several
handles) and `Server.sweeps_sweep` (a whole sweep). -/

namespace Telecontrol

open Ranked (rank)

namespace Plant

variable {p : Plant} {now : Int} {h h' : Handle} {hs : List Handle} {i : PointId}

/-! ## Listed handles -/

/-- The handles that the stations on the roster list, station by station. -/
def listed (p : Plant) : List Handle :=
  p.roster.values.flatMap fun id => (p.station id).points.values

/-- Handles are **apart** when no two of them resolve to the same point. -/
def Apart (p : Plant) (hs : List Handle) : Prop :=
  hs.Pairwise fun h h' => ∀ i, p.points.resolve? h = some i → p.points.resolve? h' ≠ some i

/-- In an orderly plant a point is listed in one place. -/
theorem Orderly.place_eq (ho : p.Orderly) {ca ca' : CommonAddress} {id id' : StationId}
    {a a' : ObjectAddress} (hid : p.find? ca = some id) (hh : p.handle? id a = some h)
    (hi : p.points.resolve? h = some i) (hid' : p.find? ca' = some id')
    (hh' : p.handle? id' a' = some h') (hi' : p.points.resolve? h' = some i) :
    ca = ca' ∧ a = a' := by
  obtain ⟨b, hb, rfl, rfl⟩ := ho hid hh hi
  obtain ⟨c, hc, rfl, rfl⟩ := ho hid' hh' hi'
  obtain rfl := Option.some.inj (hb.symm.trans hc)
  exact ⟨rfl, rfl⟩

/-- The handles that an orderly plant lists are apart. -/
theorem Orderly.apart (ho : p.Orderly) : p.Apart p.listed := by
  rw [Apart, listed, List.pairwise_flatMap]
  constructor
  · intro id hid
    obtain ⟨⟨ca, id⟩, hmem, rfl⟩ := List.mem_map.mp hid
    have hca : p.find? ca = some id := (Table.mem_iff_find? ..).mp hmem
    refine List.pairwise_map.mpr ((p.station id).points.ascending.imp_of_mem ?_)
    intro e f he hf hlt i hi hi'
    have heq := (ho.place_eq hca ((Table.mem_iff_find? ..).mp he) hi hca
      ((Table.mem_iff_find? ..).mp hf) hi').2
    exact Nat.ne_of_lt hlt (congrArg rank heq)
  · refine List.pairwise_map.mpr (p.roster.ascending.imp_of_mem ?_)
    intro e f he hf hlt h hh h' hh' i hi hi'
    obtain ⟨⟨a, h⟩, hmem, rfl⟩ := List.mem_map.mp hh
    obtain ⟨⟨a', h'⟩, hmem', rfl⟩ := List.mem_map.mp hh'
    have heq := (ho.place_eq ((Table.mem_iff_find? ..).mp he) ((Table.mem_iff_find? ..).mp hmem) hi
      ((Table.mem_iff_find? ..).mp hf) ((Table.mem_iff_find? ..).mp hmem') hi').1
    exact Nat.ne_of_lt hlt (congrArg rank heq)

/-! ## Timers that have run out -/

/-- Whether the timer of a live point has run out. -/
def hasRunOut (p : Plant) (now : Int) (h : Handle) : Bool :=
  (p.points.get? h).any fun a => Point.isDue a.nextTimer? now

/-- For a handle that resolves, the timer of its point decides. -/
theorem hasRunOut_eq (hi : p.points.resolve? h = some i) :
    p.hasRunOut now h = (p.points.point? i).any fun a => Point.isDue a.nextTimer? now := by
  rw [hasRunOut, PointStore.get?, hi, Option.bind_some]

/-- There is no timer to run out when the handle resolves to nothing. -/
theorem hasRunOut_of_gone (hi : p.points.resolve? h = none) : p.hasRunOut now h = false := by
  rw [hasRunOut, PointStore.get?, hi, Option.bind_none, Option.any_none]

/-- A timer that has run out is that of a point that lives. -/
theorem exists_of_hasRunOut (hout : p.hasRunOut now h = true) :
    ∃ i, p.points.resolve? h = some i := by
  cases hi : p.points.resolve? h with
  | none => rw [hasRunOut_of_gone hi] at hout; cases hout
  | some i => exact ⟨i, rfl⟩

/-- Handles that are apart name no point twice whose timer has run out. -/
theorem Apart.nodup_filter (ha : p.Apart hs) : (hs.filter (p.hasRunOut now)).Nodup := by
  refine List.Pairwise.imp_of_mem ?_ (ha.filter _)
  rintro h h' hmem - hne rfl
  obtain ⟨i, hi⟩ := exists_of_hasRunOut (List.mem_filter.mp hmem).2
  exact hne i hi hi

end Plant

namespace Server

variable {s u v : Server} {h : Handle} {hs hs' : List Handle} {i : PointId}

/-! ## One timer after the other -/

/-- A timer that has not run out is left alone. -/
theorem serveTimer_of_not (hout : s.plant.hasRunOut s.now h = false) : s.serveTimer h = s := by
  rw [serveTimer]
  cases hi : s.plant.points.resolve? h with
  | none => rfl
  | some i => exact if_neg (Bool.eq_false_iff.mp ((Plant.hasRunOut_eq hi).symm.trans hout))

/-- Serving a timer that has run out in one update, while the executor runs. -/
theorem serveTimer_eq (hrun : s.executor.running = true) (hi : s.plant.points.resolve? h = some i)
    (hout : s.plant.hasRunOut s.now h = true) :
    s.serveTimer h =
      { s with
        plant := s.plant.modifyPoint i (·.markTimer (clockCount s.now))
        executor := s.executor.push .immediate (.once (.pointTimer h)) } := by
  have hdue : ((s.point? i).any fun p => Point.isDue p.nextTimer? s.now) = true :=
    (Plant.hasRunOut_eq hi).symm.trans hout
  rw [serveTimer, hi]
  dsimp only
  rw [if_pos hdue, defer_eq, if_pos (show (s.modifyPoint i _).executor.running = true from hrun)]
  rfl

/-- What becomes of a point when the timers of some handles are served. -/
def served (s : Server) (hs : List Handle) (i : PointId) (a : Point) : Point :=
  if (∃ h ∈ hs, s.plant.points.resolve? h = some i) ∧ Point.isDue a.nextTimer? s.now then
    a.markTimer (clockCount s.now)
  else a

/-- A point whose handle is not among them is left as it is. -/
theorem served_of_not_mem (hnone : ∀ h ∈ hs, s.plant.points.resolve? h ≠ some i) (a : Point) :
    s.served hs i a = a := if_neg fun ⟨⟨h, hh, hi⟩, _⟩ => hnone h hh hi

/-- What is served depends on the clock and on the points that live. -/
theorem served_congr (hnow : u.now = s.now)
    (hresolve : ∀ h, u.plant.points.resolve? h = s.plant.points.resolve? h) :
    u.served hs i = s.served hs i := by
  funext a
  simp only [served, hnow, hresolve]

/-- The point of one handle and those of others are served in turn. -/
theorem served_cons (ha : s.plant.Apart (h :: hs)) (a : Point) :
    s.served hs i (s.served [h] i a) = s.served (h :: hs) i a := by
  obtain ⟨hfirst, -⟩ := List.pairwise_cons.mp ha
  by_cases hi : s.plant.points.resolve? h = some i
  · rw [served_of_not_mem fun h' hh' => hfirst h' hh' i hi]
    simp [served, hi]
  · rw [served_of_not_mem (List.forall_mem_singleton.mpr hi)]
    simp [served, hi]

/-- The timers of some handles are **served**: exactly the points whose timer has run out are
marked, a call of the timer callback is deferred for each of them, and nothing else changes. -/
structure TimersServed (s : Server) (hs : List Handle) (s' : Server) : Prop where
  rest : ∃ points executor, s' =
    { s with plant := { s.plant with points := { s.plant.points with points } }, executor }
  running : s'.executor.running = true
  point : ∀ i, s'.point? i = (s.point? i).map (s.served hs i)
  queue : ∃ tasks, s'.executor.queue.Perm (tasks ++ s.executor.queue) ∧
    tasks.map (·.work) =
      ((hs.filter (s.plant.hasRunOut s.now)).map fun h => .once (.pointTimer h)).reverse

/-- There is nothing to serve when no timer has run out. -/
theorem timersServed_refl (hrun : s.executor.running = true)
    (hnone : ∀ h ∈ hs, s.plant.hasRunOut s.now h = false) : s.TimersServed hs s where
  rest := ⟨_, _, rfl⟩
  running := hrun
  point i := by
    cases hp : s.point? i with
    | none => rfl
    | some a =>
      refine congrArg some (if_neg ?_).symm
      rintro ⟨⟨h, hh, hi⟩, hdue⟩
      have hout := hnone h hh
      have hp : s.plant.points.point? i = some a := hp
      rw [Plant.hasRunOut_eq hi, hp, Option.any_some, hdue] at hout
      cases hout
  queue := by
    refine ⟨[], .refl _, ?_⟩
    rw [List.filter_eq_nil_iff.mpr fun h hh => Bool.eq_false_iff.mp (hnone h hh)]
    rfl

/-- Serving the timer of one handle. -/
theorem timersServed_serveTimer (hrun : s.executor.running = true) (h : Handle) :
    s.TimersServed [h] (s.serveTimer h) := by
  cases hout : s.plant.hasRunOut s.now h with
  | false =>
    rw [serveTimer_of_not hout]
    exact timersServed_refl hrun (List.forall_mem_singleton.mpr hout)
  | true =>
    obtain ⟨i, hi⟩ := Plant.exists_of_hasRunOut hout
    rw [serveTimer_eq hrun hi hout]
    refine ⟨⟨_, _, rfl⟩, hrun, fun j => ?_, _, Executor.push_perm .., ?_⟩
    · show (s.plant.points.modify i _).point? j = (s.plant.points.point? j).map _
      rw [PointStore.point?_modify]
      -- the point of the handle is marked, all others stay
      by_cases hij : i = j
      · subst hij
        rw [if_pos rfl]
        refine Option.map_congr fun a ha => (if_pos ⟨⟨h, List.mem_singleton_self h, hi⟩, ?_⟩).symm
        rwa [Plant.hasRunOut_eq hi, ha] at hout
      · have hother (a : Point) : s.served [h] j a = a :=
          served_of_not_mem (List.forall_mem_singleton.mpr fun hj =>
            hij (Option.some.inj (hi.symm.trans hj))) a
        rw [if_neg hij, funext hother, Option.map_id']
    · rw [List.filter_cons_of_pos hout]
      rfl

namespace TimersServed

/-- Serving timers in two portions changes marks and the queue at most. -/
theorem rest_trans (h₁ : s.TimersServed hs u) (h₂ : u.TimersServed hs' v) :
    ∃ points executor, v =
      { s with plant := { s.plant with points := { s.plant.points with points } }, executor } := by
  obtain ⟨_, _, rfl⟩ := h₁.rest
  obtain ⟨_, _, rfl⟩ := h₂.rest
  exact ⟨_, _, rfl⟩

/-- The clock stands still while timers are served. -/
theorem now (h₁ : s.TimersServed hs u) : u.now = s.now := by
  obtain ⟨_, _, rfl⟩ := h₁.rest
  rfl

/-- No handle is given up. -/
theorem resolve? (h₁ : s.TimersServed hs u) (h : Handle) :
    u.plant.points.resolve? h = s.plant.points.resolve? h := by
  obtain ⟨_, _, rfl⟩ := h₁.rest
  rfl

/-- Handles that stand for different points go on doing so. -/
theorem apart (h₁ : s.TimersServed hs u) (ha : s.plant.Apart hs') : u.plant.Apart hs' :=
  ha.imp fun hne i hi => by
    rw [h₁.resolve?] at hi ⊢
    exact hne i hi

/-- A point to which none of the handles resolves is as it was. -/
theorem point_eq (h₁ : s.TimersServed hs u)
    (hnone : ∀ h ∈ hs, s.plant.points.resolve? h ≠ some i) : u.point? i = s.point? i := by
  rw [h₁.point, funext (served_of_not_mem hnone), Option.map_id']

/-- The timer of a handle that resolves to another point has run out as before. -/
theorem hasRunOut_eq (h₁ : s.TimersServed [h] u) {h' : Handle}
    (hne : ∀ i, s.plant.points.resolve? h = some i → s.plant.points.resolve? h' ≠ some i) :
    u.plant.hasRunOut u.now h' = s.plant.hasRunOut s.now h' := by
  cases hi : s.plant.points.resolve? h' with
  | none =>
    rw [Plant.hasRunOut_of_gone hi, Plant.hasRunOut_of_gone ((h₁.resolve? h').trans hi)]
  | some i =>
    have hsame : u.plant.points.point? i = s.plant.points.point? i :=
      h₁.point_eq (List.forall_mem_singleton.mpr fun hj => hne i hj hi)
    rw [Plant.hasRunOut_eq hi, Plant.hasRunOut_eq ((h₁.resolve? h').trans hi), hsame, h₁.now]

/-- The timer of one handle is served and then those of others, which resolve to other points. -/
theorem cons (h₁ : s.TimersServed [h] u) (h₂ : u.TimersServed hs v)
    (ha : s.plant.Apart (h :: hs)) : s.TimersServed (h :: hs) v := by
  obtain ⟨tasks, hperm, hworks⟩ := h₁.queue
  obtain ⟨tasks', hperm', hworks'⟩ := h₂.queue
  refine ⟨h₁.rest_trans h₂, h₂.running, fun i => ?_, tasks' ++ tasks, ?_, ?_⟩
  · rw [h₂.point, h₁.point, Option.map_map, served_congr h₁.now h₁.resolve?]
    exact Option.map_congr fun a _ => served_cons ha a
  · rw [List.append_assoc]
    exact hperm'.trans (hperm.append_left tasks')
  · have hsame : ∀ h' ∈ hs, u.plant.hasRunOut u.now h' = s.plant.hasRunOut s.now h' :=
      fun h' hh' => h₁.hasRunOut_eq ((List.pairwise_cons.mp ha).1 h' hh')
    rw [List.map_append, hworks, hworks', List.filter_congr hsame, ← List.reverse_append,
      ← List.map_append, ← List.filter_append, List.singleton_append]

end TimersServed

/-- Serving the timers of handles that are apart. -/
theorem timersServed_foldl (hrun : s.executor.running = true) (ha : s.plant.Apart hs) :
    s.TimersServed hs (hs.foldl serveTimer s) := by
  induction hs generalizing s with
  | nil => exact timersServed_refl hrun fun h hh => absurd hh List.not_mem_nil
  | cons h rest ih =>
    have hone := timersServed_serveTimer hrun h
    exact hone.cons (ih hone.running (hone.apart (List.pairwise_cons.mp ha).2)) ha

/-! ## A sweep -/

/-- Serving a timer changes no station. -/
theorem stations_serveTimer (s : Server) (h : Handle) :
    (s.serveTimer h).plant.stations = s.plant.stations := by
  rw [serveTimer]
  split
  · rfl
  · split
    · rw [(Keeps.defer ..).plant]
      rfl
    · rfl

/-- Serving timers leaves the stations as they are. -/
theorem stations_foldl_serveTimer (s : Server) (hs : List Handle) :
    (hs.foldl serveTimer s).plant.stations = s.plant.stations :=
  List.foldlRecOn (motive := fun u : Server => u.plant.stations = s.plant.stations) hs _ rfl
    fun u hu h _ => (stations_serveTimer u h).trans hu

/-- The timers are served one handle after the other. -/
theorem serveTimers_eq (s : Server) : s.serveTimers = s.plant.listed.foldl serveTimer s := by
  have hall (ids : List StationId) (u : Server) (hu : u.plant.stations = s.plant.stations) :
      ids.foldl (fun u id => (u.plant.station id).points.values.foldl serveTimer u) u =
        (ids.flatMap fun id => (s.plant.station id).points.values).foldl serveTimer u := by
    induction ids generalizing u with
    | nil => rfl
    | cons id rest ih =>
      rw [List.flatMap_cons, List.foldl_append, List.foldl_cons,
        ih _ ((stations_foldl_serveTimer ..).trans hu), Plant.station, hu]
      rfl
  exact hall _ s rfl

/-- How many calls of the timer callback of a point wait. -/
def timerCalls (s : Server) (h : Handle) : Nat :=
  (s.executor.queue.map (·.work)).count (.once (.pointTimer h))

/-- The calls that wait when tasks join the queue. -/
theorem timerCalls_of_perm {tasks : List (Task Job)}
    (hperm : u.executor.queue.Perm (tasks ++ s.executor.queue)) (h : Handle) :
    u.timerCalls h = s.timerCalls h + (tasks.map (·.work)).count (.once (.pointTimer h)) := by
  rw [timerCalls, (hperm.map _).count_eq, List.map_append, List.count_append, Nat.add_comm,
    timerCalls]

/-- Whoever is told of an expired selection, no timer is served. -/
theorem timerCalls_dropExpired (hrun : s.executor.running = true) (h : Handle) :
    s.dropExpired.timerCalls h = s.timerCalls h := by
  obtain ⟨e, tasks, hdrop, -, hperm, hworks⟩ := dropExpired_eq hrun
  have hperm : s.dropExpired.executor.queue.Perm (tasks ++ s.executor.queue) := hdrop ▸ hperm
  rw [timerCalls_of_perm hperm, hworks, List.count_eq_zero_of_not_mem, Nat.add_zero]
  intro hmem
  obtain ⟨held, -, heq⟩ := List.mem_map.mp hmem
  cases heq

/-- One call is deferred for each timer that has run out. -/
theorem TimersServed.timerCalls_eq (hserved : s.TimersServed hs u) (ha : s.plant.Apart hs)
    (h : Handle) : u.timerCalls h =
      s.timerCalls h + if h ∈ hs ∧ s.plant.hasRunOut s.now h = true then 1 else 0 := by
  obtain ⟨tasks, hperm, hworks⟩ := hserved.queue
  have hinj : Function.Injective fun h => (.once (.pointTimer h) : Work Job) :=
    fun _ _ heq => Job.pointTimer.inj (Work.once.inj heq)
  rw [timerCalls_of_perm hperm, hworks, List.count_reverse,
    List.count_map_of_injective _ _ hinj, ha.nodup_filter.count]
  simp only [List.mem_filter]

/-- What a **sweep** does about the timers: exactly the listed points whose timer has run out are
marked, and one call of the timer callback is deferred for each of them. -/
structure Sweeps (s s' : Server) : Prop where
  point : ∀ i, s'.point? i = (s.point? i).map (s.served s.plant.listed i)
  calls : ∀ h, s'.timerCalls h =
    s.timerCalls h + if h ∈ s.plant.listed ∧ s.plant.hasRunOut s.now h = true then 1 else 0

/-- A sweep serves the timers of all listed points once the expired selections are gone. -/
theorem timersServed_sweep (ho : s.plant.Orderly) (hrun : s.executor.running = true) :
    s.dropExpired.TimersServed s.plant.listed s.sweep := by
  have hrun' : s.dropExpired.executor.running = true := by
    obtain ⟨_, _, hdrop, hrun', -⟩ := dropExpired_eq hrun
    rw [hdrop]
    exact hrun'
  have hplant := (Keeps.dropExpired s).plant
  rw [sweep, serveTimers_eq, hplant]
  exact timersServed_foldl hrun' (hplant ▸ ho.apart)

/-- A sweep serves each timer that has run out once. -/
theorem sweeps_sweep (ho : s.plant.Orderly) (hrun : s.executor.running = true) :
    s.Sweeps s.sweep := by
  have hkeeps := Keeps.dropExpired s
  have hapart : s.dropExpired.plant.Apart s.plant.listed := hkeeps.plant ▸ ho.apart
  have hserved := timersServed_sweep ho hrun
  refine ⟨fun i => ?_, fun h => ?_⟩
  · rw [hserved.point, served_congr hkeeps.now fun h => by rw [hkeeps.plant], point?, hkeeps.plant]
    rfl
  · rw [hserved.timerCalls_eq hapart, timerCalls_dropExpired hrun, hkeeps.plant, hkeeps.now]

end Server

end Telecontrol
