import Telecontrol.Proofs.Sweeping

/-! # Tame servers

A server is **tame** when nobody ever attached a callback to it that is not modest. While
generations do not wrap, the calls of timer callbacks that wait at a tame server are to be done at
once, and each is for a handle that was issued. So no call waits for a point that was made just now,
and none waits when the worker has nothing to do. A call finds the point for which it was deferred
or nothing.

Main statements: `Server.Tame.poised`, `Server.Tame.timerCalls_addPoint`,
`Server.Poised.calls_live` and `Server.Poised.calls_gone`. -/

namespace Telecontrol

namespace Server

variable {s s' : Server} {h : Handle} {i : PointId} {p : Point} {inp : Input} {deeds : Set Deed}

/-! ## Tame servers -/

/-- The states that a run of a new server leads to in which nobody attaches a callback that is not
modest. -/
inductive Tame : Server → Prop where
  | new {options : Options} {transport : Transport} {now : Int} {s : Server}
      (h : Server.new options transport now = .ok s) : Tame s
  | step {s : Server} {inp : Input} (h : Tame s) (hinp : inp.IsModest) : Tame (s.step inp)

/-- A tame server is reachable. -/
theorem Tame.reachable (h : s.Tame) : s.Reachable := by
  induction h with
  | new h => exact .new h
  | step _ _ ih => exact ih.step _

/-- A tame server stays so with modest inputs. -/
theorem Tame.run (h : s.Tame) {inputs : List Input} (hinputs : ∀ inp ∈ inputs, inp.IsModest) :
    (s.run inputs).Tame := by
  induction inputs generalizing s with
  | nil => exact h
  | cons inp rest ih =>
    obtain ⟨hinp, hrest⟩ := List.forall_mem_cons.mp hinputs
    exact ih (h.step hinp) hrest

/-- Moves make points and issue handles, and take neither back while generations do not wrap. -/
theorem Visited.issued_moves (hs : s.Visited) (hm : Moves deeds s s') :
    s.plant.points.points.size ≤ s'.plant.points.points.size ∧
      (s'.plant.points.points.size < 2 ^ 32 → s.plant.points.registry.Issued h →
        s'.plant.points.registry.Issued h) := by
  refine (hm.induction (P := fun u => u.Visited ∧
    s.plant.points.points.size ≤ u.plant.points.points.size ∧
      (u.plant.points.points.size < 2 ^ 32 → s.plant.points.registry.Issued h →
        u.plant.points.registry.Issued h))
    (fun {u v d} _ hm hu => ⟨hu.1.move hm, ?_⟩) ⟨hs, Nat.le_refl _, fun _ h => h⟩).2
  obtain ⟨hu, hle, hissued⟩ := hu
  rcases hm.plant_cases with heq | ⟨id, f, -, heq⟩ | hc
  · rw [heq]
    exact ⟨hle, hissued⟩
  · have hsize : v.plant.points.points.size = u.plant.points.points.size := by
      rw [heq]
      exact Array.size_modify
    rw [hsize, heq]
    exact ⟨hle, hissued⟩
  · refine ⟨Nat.le_trans hle hc.size_le, fun hlt hh => ?_⟩
    have hlt' := Nat.lt_of_le_of_lt hc.size_le hlt
    exact (hc.of_issued (hu.tidy hlt') hlt (hissued hlt' hh)).1

/-- A server is **poised** when its callbacks are modest, and the calls of timer callbacks that wait
are to be done at once, each for a handle that was issued. -/
structure Poised (s : Server) : Prop where
  modest : s.Modest
  prompt : ∀ t ∈ s.timings, t.due = .immediate
  issued : ∀ t ∈ s.timings, ∃ h, t.work = .once (.pointTimer h) ∧ s.plant.points.registry.Issued h

/-- Tame servers are poised while generations do not wrap. -/
theorem Tame.poised (h : s.Tame) (hlt : s.plant.points.points.size < 2 ^ 32) : s.Poised := by
  induction h with
  | new h =>
    obtain rfl := new_eq_ok h
    refine ⟨⟨fun hp => ?_, fun hactions => ?_, fun {sent _} hactions => ?_⟩, fun _ ht => ?_,
      fun _ ht => ?_⟩
    · cases hp
    · cases hactions
    · cases sent <;> cases hactions
    · cases ht
    · cases ht
  | @step s inp h hinp ih =>
    have hs := h.reachable.visited
    have hmoves := moves_step hs.wellFormed inp
    have hissued (h : Handle) := hs.issued_moves (h := h) hmoves
    have hlt' := Nat.lt_of_le_of_lt (hissued default).1 hlt
    have hp := ih hlt'
    have hold {t : Task Job} (ht : t ∈ s.timings) : t.due = .immediate ∧
        ∃ h, t.work = .once (.pointTimer h) ∧ (s.step inp).plant.points.registry.Issued h := by
      obtain ⟨h, hwork, hh⟩ := hp.issued t ht
      exact ⟨hp.prompt t ht, h, hwork, (hissued h).2 hlt hh⟩
    -- a call that waits has waited before, or a sweep has deferred it for a point that lives
    suffices hall : (s.step inp).Modest ∧ ∀ t ∈ (s.step inp).timings, t.due = .immediate ∧
        ∃ h, t.work = .once (.pointTimer h) ∧ (s.step inp).plant.points.registry.Issued h from
      ⟨hall.1, fun t ht => (hall.2 t ht).1, fun t ht => (hall.2 t ht).2⟩
    rcases time_cases ∅ hs.wellFormed hp.modest (hs.orderly hlt') nofun hinp nofun with
      ⟨-, -, hticks⟩ | ⟨ca, -, hcycles⟩ | ⟨-, -, gone, hidles, -⟩
    · refine ⟨hticks.modest hp.modest, fun t ht => ?_⟩
      rcases hticks.joins t ht with ht | ⟨hdue, h, i, hwork, hi⟩
      · exact hold ht
      · exact ⟨hdue, h, hwork, (hissued h).2 hlt (.of_get? hi)⟩
    · exact ⟨hcycles.modest hp.modest, fun t ht => hold (hcycles.timings ▸ ht)⟩
    · refine ⟨hidles.modest hp.modest, fun t ht => hold ?_⟩
      rw [hidles.timings]
      exact List.mem_append_right gone ht

/-! ## Points that are made -/

/-- A point that is made has the next number, and its handle resolves to it. -/
theorem Visited.addPoint_fields (hs : s.Visited) (hlt : s.plant.points.points.size < 2 ^ 32)
    {id : StationId} {spec : PointSpec} {q : Plant}
    (ha : s.plant.addPoint id s.now spec = .ok (q, h)) :
    h = (s.plant.points.insert (.ofSpec (s.plant.station id).address s.now spec)).2 ∧
      q.points.resolve? h = some s.plant.points.points.size ∧
      q.points.point? s.plant.points.points.size =
        some (.ofSpec (s.plant.station id).address s.now spec) := by
  obtain ⟨-, -, hq⟩ := (Plant.addPoint_eq_ok_iff ..).mp ha
  obtain ⟨rfl, rfl⟩ := Prod.mk.inj hq
  have htidy := hs.tidy hlt
  refine ⟨rfl, ?_, Array.getElem?_push_size⟩
  have hslots := Nat.lt_of_le_of_lt htidy.within.size hlt
  exact (htidy.sound.get?_insert hslots _ _).trans (if_pos rfl)

/-- No call waits for a point that was made just now. -/
theorem Tame.timerCalls_addPoint (hs : s.Tame) (hlt : s.plant.points.points.size < 2 ^ 32)
    {id : StationId} {spec : PointSpec} {q : Plant}
    (ha : s.plant.addPoint id s.now spec = .ok (q, h)) : s.timerCalls h = 0 := by
  have htidy := hs.reachable.visited.tidy hlt
  have hslots := Nat.lt_of_le_of_lt htidy.within.size hlt
  rw [timerCalls_eq]
  refine List.count_eq_zero_of_not_mem fun hmem => ?_
  obtain ⟨t, ht, hwork⟩ := List.mem_map.mp hmem
  obtain ⟨h', hwork', hissued⟩ := (hs.poised hlt).issued t ht
  obtain rfl := Job.pointTimer.inj (Work.once.inj (hwork.symm.trans hwork'))
  rw [(hs.reachable.visited.addPoint_fields hlt ha).1] at hissued
  exact htidy.sound.not_issued_insert hslots _ hissued

/-! ## The worker -/

/-- The worker does nothing when the executor was stopped. -/
theorem step_work_of_stopped (hrun : s.executor.running = false) : s.step .work = s := by
  have hnone : s.executor.next? s.now = none := by
    cases hnext : s.executor.next? s.now with
    | none => rfl
    | some found =>
      rw [((Executor.next?_eq_some_iff ..).mp hnext).1] at hrun
      cases hrun
  show s.work?.getD s = s
  rw [work?, hnone]
  rfl

/-- No call waits when the worker of a poised server has nothing to do. -/
theorem Poised.timings_eq_nil (hs : s.Poised) (hrun : s.executor.running = true)
    (hnext : s.executor.next? s.now = none) : s.timings = [] := by
  refine List.eq_nil_iff_forall_not_mem.mpr fun t ht => ?_
  have hmem := (mem_timings.mp ht).1
  rw [Executor.next?] at hnext
  split at hnext
  · rename_i hqueue
    rw [hqueue] at hmem
    cases hmem
  · rename_i first rest hqueue
    -- whatever comes before a call is to be done at once as well
    have hfirst : first.due = .immediate := by
      rw [hqueue] at hmem
      rcases List.mem_cons.mp hmem with rfl | hrest
      · exact hs.prompt t ht
      · have hordered := s.executor.ordered
        rw [hqueue] at hordered
        rcases (List.pairwise_cons.mp hordered).1 t hrest with hlt | ⟨heq, -⟩
        · rw [hs.prompt t ht] at hlt
          exact absurd hlt (Due.not_lt_immediate _)
        · exact heq.trans (hs.prompt t ht)
    rw [hfirst, hrun] at hnext
    cases hnext

/-- When the worker of a poised server comes to a call, it is not late. -/
theorem Poised.step_pointTimer (hs : s.Poised) (hwell : s.WellFormed)
    (hjob : s.nextJob? = some (.pointTimer h)) :
    ∃ e : Executor Job, s.step .work = { s with executor := e }.guard (fireTimer onFrame h) := by
  obtain ⟨task, e, hnext, -⟩ := next?_of_nextJob? hjob
  have hwork := work_of_nextJob? hwell hnext hjob fun d => nofun
  have hmem : task ∈ s.timings := by
    refine mem_timings.mpr ⟨?_, by rw [hwork]; rfl⟩
    rw [((Executor.next?_eq_some_iff ..).mp hnext).2.2.1]
    exact List.mem_cons_self
  have htaking : s.taking task e = { s with executor := e } := by
    rw [taking, noteLateness_eq, hs.prompt task hmem, Executor.launch_once e s.now hwork]
    rfl
  refine ⟨e, ?_⟩
  show s.work?.getD s = _
  rw [(work?_eq hnext).2, hjob, htaking]
  rfl

/-- A call finds the live point, and its callback is called. -/
theorem Poised.calls_live (hs : s.Poised) (hwell : s.WellFormed)
    (hjob : s.nextJob? = some (.pointTimer h)) (hi : s.plant.points.resolve? h = some i)
    (hp : s.point? i = some p) :
    ∃ e : Executor Job, { s with executor := e }.Carries (s.plant.afterCall s.now .timer i)
      (p.calls .timer) (s.step .work) := by
  obtain ⟨e, hstep⟩ := hs.step_pointTimer hwell hjob
  have hcall : (call onFrame .timer i).ComesTo { s with executor := e } ⟨⟩
      (s.plant.afterCall s.now .timer i) (p.calls .timer) :=
    comesTo_call (hs.modest.hooksLocal .timer) hp
  obtain ⟨s', hok, hcarries⟩ := hcall
  have hfire : fireTimer onFrame h { s with executor := e } = .ok ⟨⟩ s' := by
    rw [fireTimer, Act.get_bind]
    dsimp only
    rw [hi]
    exact hok
  rw [guard, hfire] at hstep
  exact ⟨e, hstep ▸ hcarries⟩

/-- A call that finds no point does nothing. -/
theorem Poised.calls_gone (hs : s.Poised) (hwell : s.WellFormed)
    (hjob : s.nextJob? = some (.pointTimer h)) (hgone : s.plant.points.resolve? h = none) :
    ∃ e : Executor Job, s.step .work = { s with executor := e } := by
  obtain ⟨e, hstep⟩ := hs.step_pointTimer hwell hjob
  have hfire : fireTimer onFrame h { s with executor := e } = .ok ⟨⟩ { s with executor := e } := by
    rw [fireTimer, Act.get_bind]
    dsimp only
    rw [hgone]
    rfl
  rw [guard, hfire] at hstep
  exact ⟨e, hstep⟩

end Server

end Telecontrol
