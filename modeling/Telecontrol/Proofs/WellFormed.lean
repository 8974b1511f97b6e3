import Telecontrol.Proofs.Move

/-! # What every server satisfies

No station answers to the global address, only points of selectable types are in select-and-execute
mode, and periodic work consists of the duties. Every move keeps this, and moves that callbacks
reach also keep the callbacks themselves.

Main statements: `Move.follows` (what a move does to the plant), `Move.wellFormed`,
`Visited.wellFormed` is the run lemma, and `Moves.ready` carries what is known of the callbacks
through a part of a run. -/

namespace Telecontrol

/-! ## How a plant follows another -/

/-- How a point may change for a deed: its callbacks change only when one is attached. -/
def Point.SameFor (d : Deed) (p q : Point) : Prop :=
  p.SameAs q ∧ (d ≠ .attach → q.callbacks = p.callbacks)

namespace Point

/-- A point is the same as itself. -/
theorem SameAs.refl (p : Point) : p.SameAs p := ⟨rfl, rfl, rfl, rfl, rfl, rfl⟩

/-- A point is the same as another one through a third one. -/
theorem SameAs.trans {p q r : Point} (h : p.SameAs q) (h' : q.SameAs r) : p.SameAs r :=
  ⟨h'.station.trans h.station, h'.address.trans h.address, h'.type.trans h.type,
    h'.mode.trans h.mode, h'.related.trans h.related, h'.autoReturn.trans h.autoReturn⟩

/-- A point that does not change does so for any deed. -/
theorem SameFor.refl (d : Deed) (p : Point) : p.SameFor d p := ⟨.refl p, fun _ => rfl⟩

end Point

namespace Plant

/-- One plant **follows** another: the points of the first are still there, related to what they
were, and every new point is admissible. -/
structure Follows (R : Point → Point → Prop) (p q : Plant) : Prop where
  global : p.find? globalAddress = none → q.find? globalAddress = none
  kept : ∀ {id a}, p.points.point? id = some a → ∃ b, q.points.point? id = some b ∧ R a b
  known : ∀ {id b}, q.points.point? id = some b →
    (∃ a, p.points.point? id = some a ∧ R a b) ∨
      ∃ station now spec, PointSpec.Admissible spec ∧ b = .ofSpec station now spec

variable {R : Point → Point → Prop} {p q : Plant}

/-- A plant with the same points and no new station follows. -/
theorem follows_of_points_eq (hR : ∀ a, R a a)
    (hg : p.find? globalAddress = none → q.find? globalAddress = none)
    (h : q.points.points = p.points.points) : p.Follows R q := by
  have hp (id : PointId) : q.points.point? id = p.points.point? id := by
    rw [PointStore.point?, h, PointStore.point?]
  refine ⟨hg, fun {id a} ha => ⟨a, (hp id).trans ha, hR a⟩, fun {id b} hb => .inl ⟨b, ?_, hR b⟩⟩
  rw [← hp id, hb]

/-- Writing to a point is followed by what is written. -/
theorem follows_modifyPoint (hR : ∀ a, R a a) (id : PointId) {f : Point → Point}
    (hf : ∀ a, R a (f a)) : p.Follows R (p.modifyPoint id f) := by
  have hp (id' : PointId) : (p.modifyPoint id f).points.point? id' =
      if id = id' then (p.points.point? id').map f else p.points.point? id' :=
    PointStore.point?_modify p.points id id' f
  refine ⟨fun h => h, fun {id' a} ha => ?_, fun {id' b} hb => .inl ?_⟩
  · rw [hp]
    by_cases h : id = id'
    · exact ⟨f a, by rw [if_pos h, ha]; rfl, hf a⟩
    · exact ⟨a, by rw [if_neg h, ha], hR a⟩
  · rw [hp] at hb
    by_cases h : id = id'
    · rw [if_pos h] at hb
      obtain ⟨a, ha, rfl⟩ := Option.map_eq_some_iff.mp hb
      exact ⟨a, ha, hf a⟩
    · rw [if_neg h] at hb
      exact ⟨b, hb, hR b⟩

/-- A new point is added behind those there are. -/
theorem follows_push (hR : ∀ a, R a a)
    (hg : p.find? globalAddress = none → q.find? globalAddress = none) {station : CommonAddress}
    {now : Int} {spec : PointSpec} (hspec : spec.Admissible)
    (h : q.points.points = p.points.points.push (.ofSpec station now spec)) : p.Follows R q := by
  have hp (id : PointId) : q.points.point? id =
      if id = p.points.points.size then some (.ofSpec station now spec)
      else p.points.point? id := by
    rw [PointStore.point?, h, Array.getElem?_push, PointStore.point?]
  refine ⟨hg, fun {id a} ha => ?_, fun {id b} hb => ?_⟩
  · have hlt : id < p.points.points.size := by
      obtain ⟨hi, -⟩ := Array.getElem?_eq_some_iff.mp ha
      exact hi
    exact ⟨a, by rw [hp, if_neg (Nat.ne_of_lt hlt), ha], hR a⟩
  · rw [hp] at hb
    by_cases hid : id = p.points.points.size
    · rw [if_pos hid] at hb
      exact .inr ⟨station, now, spec, hspec, (Option.some.inj hb).symm⟩
    · rw [if_neg hid] at hb
      exact .inl ⟨b, hb, hR b⟩

/-- Giving up the points of a station that nobody holds touches neither the roster nor the points
themselves. -/
theorem abandon_fields (p : Plant) (id : StationId) :
    (p.abandon id).roster = p.roster ∧ (p.abandon id).points.points = p.points.points := by
  rw [abandon]
  split <;> exact ⟨rfl, rfl⟩

/-- Taking every station off the roster leaves the roster empty and the points themselves alone. -/
theorem dissolve_fields (p : Plant) :
    p.dissolve.roster = .empty ∧ p.dissolve.points.points = p.points.points := by
  let Kept (q : Plant) : Prop := q.roster = .empty ∧ q.points.points = p.points.points
  have hstart : Kept { p with roster := .empty } := ⟨rfl, rfl⟩
  show Kept p.dissolve
  rw [dissolve]
  refine List.foldlRecOn _ _ hstart fun q hq id _ => ?_
  obtain ⟨hr, hp⟩ := q.abandon_fields id
  exact ⟨hr.trans hq.1, hp.trans hq.2⟩

/-- Every change of the plant is followed. -/
theorem Change.follows {now : Int} (h : p.Change now q) (hR : ∀ a, R a a) : p.Follows R q := by
  cases h with
  | addStation h =>
    obtain ⟨hne, -, -, rfl⟩ := (addStation_eq_ok_iff ..).mp h
    refine follows_of_points_eq hR (fun hg => ?_) rfl
    exact (Table.find?_insert_of_ne _ _ (Ne.symm hne)).trans hg
  | removeStation h =>
    obtain ⟨id, -, rfl⟩ := Option.map_eq_some_iff.mp h
    refine follows_of_points_eq hR (fun hg => ?_) rfl
    show (p.roster.erase _).find? globalAddress = none
    rw [Table.find?_erase]
    -- without the entry, or as before
    split
    · rfl
    · exact hg
  | keep => exact follows_of_points_eq hR (fun hg => hg) rfl
  | release id =>
    obtain ⟨hr, hp⟩ := abandon_fields { p with kept := p.kept.erase id } id
    refine follows_of_points_eq hR (fun hg => ?_) hp
    show (Plant.abandon _ _).roster.find? globalAddress = none
    rw [hr]
    exact hg
  | addPoint h =>
    obtain ⟨hspec, -, he⟩ := (addPoint_eq_ok_iff ..).mp h
    obtain ⟨rfl, -⟩ := Prod.mk.inj he
    exact follows_push hR (fun hg => hg) hspec rfl
  | removePoint id address =>
    rw [Plant.removePoint]
    split <;> exact follows_of_points_eq hR (fun hg => hg) rfl
  | vacate => exact follows_of_points_eq hR (fun hg => hg) rfl
  | dissolve =>
    obtain ⟨hr, hp⟩ := p.dissolve_fields
    refine follows_of_points_eq hR (fun _ => ?_) hp
    show p.dissolve.roster.find? globalAddress = none
    rw [hr, Table.find?_empty]

end Plant

/-! ## What a move leaves alone -/

namespace Server

/-- A server **keeps** its clock, its parameters, its plant and its callbacks, and its journal only
grows. -/
structure Keeps (s s' : Server) : Prop where
  now : s'.now = s.now
  options : s'.options = s.options
  plant : s'.plant = s.plant
  callbacks : s'.callbacks = s.callbacks
  journal : s.journal <:+ s'.journal

namespace Keeps

/-- A server that stays as it is keeps everything. -/
theorem refl (s : Server) : s.Keeps s := ⟨rfl, rfl, rfl, rfl, List.suffix_refl _⟩

/-- What is kept on one way and on the next is kept on both. -/
theorem trans {s t u : Server} (h : s.Keeps t) (h' : t.Keeps u) : s.Keeps u :=
  ⟨h'.now.trans h.now, h'.options.trans h.options, h'.plant.trans h.plant,
    h'.callbacks.trans h.callbacks, h.journal.trans h'.journal⟩

/-- Noting an event keeps all but the journal. -/
theorem note (s : Server) (e : Event) : s.Keeps (s.note e) :=
  ⟨rfl, rfl, rfl, rfl, List.suffix_cons _ _⟩

/-- So does handing over a frame. -/
theorem handOver (s : Server) (f : Sent) : s.Keeps (s.handOver f) :=
  ⟨rfl, rfl, rfl, rfl, List.suffix_cons _ _⟩

/-- Deferring work keeps clock, parameters, plant and callbacks. -/
theorem defer (s : Server) (delay : Int) (job : Job) : s.Keeps (s.defer delay job) := by
  rw [defer_eq]
  split
  · exact ⟨rfl, rfl, rfl, rfl, List.suffix_refl _⟩
  · exact note s _

/-- Dropping the selections of a connection keeps them. -/
theorem dropSelections (s : Server) (c : ConnectionId) : s.Keeps (s.dropSelections c) := by
  rw [dropSelections_eq]
  exact ⟨rfl, rfl, rfl, rfl, List.suffix_append _ _⟩

/-- So does what happens to a connection. -/
theorem onConnectionEvent (s : Server) (c : ConnectionId) (e : ConnectionEvent) :
    s.Keeps (s.onConnectionEvent c e) := by
  let t : Server := { s with connections := s.connections.onEvent c e }
  have ht : s.Keeps t := ⟨rfl, rfl, rfl, rfl, List.suffix_refl _⟩
  have hdrop : s.Keeps (if e = .closed then t.dropSelections c else t) := by
    split
    · exact ht.trans (dropSelections t c)
    · exact ht
  exact hdrop.trans (note _ _)

/-- Starting the server keeps them. -/
theorem start {s s' : Server} (h : s.start = .ok s') : s.Keeps s' := by
  obtain rfl | ⟨_, _, _, _, -, -, rfl⟩ := start_cases h
  · exact refl _
  · exact ⟨rfl, rfl, rfl, rfl, List.suffix_cons _ _⟩

/-- So does stopping it. -/
theorem stop (s : Server) : s.Keeps s.stop := by
  cases h : s.running with
  | false => rw [stop_of_not_running h]; exact refl s
  | true =>
    rw [stop_eq h]
    refine ⟨rfl, rfl, rfl, rfl, ?_⟩
    -- what is noted goes in front of the journal
    dsimp only
    rw [← List.append_assoc, ← List.cons_append]
    exact List.suffix_append _ _

/-- So does stopping its worker. -/
theorem stopExecutor (s : Server) : s.Keeps s.stopExecutor := by
  rw [Server.stopExecutor]
  split
  · exact ⟨rfl, rfl, rfl, rfl, List.suffix_cons _ _⟩
  · exact refl s

/-- The release of an executed selection keeps them. -/
theorem releaseExecuted (s : Server) (station : CommonAddress) (address : ObjectAddress)
    (created : Int) : s.Keeps (s.releaseExecuted station address created) := by
  rw [Server.releaseExecuted]
  cases s.selections.createdAt? station address created with
  | none => exact ⟨rfl, rfl, rfl, rfl, List.suffix_refl _⟩
  | some held => exact ⟨rfl, rfl, rfl, rfl, List.suffix_cons _ _⟩

/-- So does dropping expired selections. -/
theorem dropExpired (s : Server) : s.Keeps s.dropExpired :=
  dropExpired_induction s ⟨rfl, rfl, rfl, rfl, List.suffix_refl _⟩ fun u _ _ hu =>
    hu.trans ((note u _).trans (defer _ _ _))

/-- Undertaking a job keeps them, whatever the job is. -/
theorem undertake (s : Server) (job : Option Job) : s.Keeps (s.undertake job) := by
  unfold Server.undertake
  split
  · exact releaseExecuted ..
  · exact handOver ..
  · exact dropExpired s
  · exact refl s

/-- Ending a selection on request keeps them. -/
theorem deactivate (s : Server) (held : Selection) : s.Keeps (s.deactivate held).1 := by
  rw [Server.deactivate]
  split
  · cases s.selections.find? held.station held.address with
    | none => exact ⟨rfl, rfl, rfl, rfl, List.suffix_refl _⟩
    | some ended => exact ⟨rfl, rfl, rfl, rfl, List.suffix_cons _ _⟩
  · exact refl s

/-- The conclusion of an execute keeps them. -/
theorem concludeExecute (s : Server) (c : ConnectionId) {m : Message}
    (hst : m.station ≠ globalAddress) : s.Keeps (s.concludeExecute c m) := by
  rw [concludeExecute_eq hst]
  split
  · exact handOver ..
  · exact (handOver ..).trans (defer ..)

end Keeps

end Server

/-- A move for a deed keeps everything but the plant and the callbacks, which it changes as the deed
allows. -/
structure Server.Alters (d : Deed) (s s' : Server) : Prop where
  now : d ≠ .time → s'.now = s.now
  options : s'.options = s.options
  follows : s.plant.Follows (Point.SameFor d) s'.plant
  callbacks : d ≠ .attach → s'.callbacks = s.callbacks
  journal : s.journal <:+ s'.journal

namespace Server

variable {d : Deed} {s s' : Server}

/-- Keeping is altering nothing. -/
theorem Keeps.alters (h : s.Keeps s') : s.Alters d s' where
  now _ := h.now
  options := h.options
  follows := by
    rw [h.plant]
    exact Plant.follows_of_points_eq (Point.SameFor.refl d) (fun hg => hg) rfl
  callbacks _ := h.callbacks
  journal := h.journal

/-- Writing to a point alters it alone. -/
theorem Alters.modifyPoint (id : PointId) {f : Point → Point}
    (hf : ∀ p : Point, p.SameFor d (f p)) : s.Alters d (s.modifyPoint id f) where
  now _ := rfl
  options := rfl
  follows := Plant.follows_modifyPoint (Point.SameFor.refl d) id hf
  callbacks _ := rfl
  journal := List.suffix_refl _

end Server

/-- Every move alters a server as its deed allows. -/
theorem Move.alters {d : Deed} {s s' : Server} (h : Move d s s') : s.Alters d s' := by
  cases h with
  | note => exact (Server.Keeps.note ..).alters
  | handOver => exact (Server.Keeps.handOver ..).alters
  | defer => exact (Server.Keeps.defer ..).alters
  | write _ id hf hc => exact .modifyPoint id fun a => ⟨hf a, fun _ => hc a⟩
  | plant _ hq =>
    exact ⟨fun _ => rfl, rfl, hq.follows (Point.SameFor.refl _), fun _ => rfl, List.suffix_refl _⟩
  | attach _ id kind callback =>
    exact .modifyPoint id fun a => ⟨⟨rfl, rfl, rfl, rfl, rfl, rfl⟩, fun hd => absurd rfl hd⟩
  | callbacks _ callbacks =>
    exact ⟨fun _ => rfl, rfl,
      Plant.follows_of_points_eq (Point.SameFor.refl _) (fun hg => hg) rfl,
      fun hd => absurd rfl hd, List.suffix_refl _⟩
  | connection => exact (Server.Keeps.onConnectionEvent ..).alters
  | start h => exact (Server.Keeps.start h).alters
  | stop => exact (Server.Keeps.stop s).alters
  | stopExecutor => exact (Server.Keeps.stopExecutor s).alters
  | pass =>
    exact ⟨fun hd => absurd rfl hd, rfl,
      Plant.follows_of_points_eq (Point.SameFor.refl _) (fun hg => hg) rfl, fun _ => rfl,
      List.suffix_refl _⟩
  | @take _ task e h =>
    -- the executor is not among what is kept
    let t : Server := { s with executor := (e.launch s.now task).1 }
    have ht : s.Keeps t := ⟨rfl, rfl, rfl, rfl, List.suffix_refl _⟩
    exact (ht.trans (.undertake t _)).alters
  | @grant _ c m =>
    let t : Server := { s with selections := s.selections.replace (m.selection c s.now) }
    have ht : s.Keeps t := ⟨rfl, rfl, rfl, rfl, List.suffix_refl _⟩
    exact (ht.trans ((Server.Keeps.note t _).trans (.handOver ..))).alters
  | deactivate => exact (Server.Keeps.deactivate ..).alters
  | @apply _ c m _ id =>
    have hwrite : s.Alters (.command c m.originator) (s.modifyPoint id (·.apply s.now m)) :=
      .modifyPoint id fun a => ⟨⟨rfl, rfl, rfl, rfl, rfl, rfl⟩, fun _ => rfl⟩
    exact ⟨hwrite.now, hwrite.options, hwrite.follows, hwrite.callbacks, List.suffix_cons _ _⟩
  | conclude h => exact (Server.Keeps.concludeExecute _ _ h.station).alters

/-! ## Well-formed servers -/

/-- Work that is periodic is a duty. -/
def Work.IsRoutine : Work Job → Prop
  | .once _ => True
  | .periodic _ _ body => ∃ duty, body = .duty duty

/-- A task that is taken leaves only duties periodic. -/
theorem Executor.routine_launch {e e' : Executor Job} {now : Int} {task : Task Job}
    (h : e.next? now = some (task, e')) (hq : ∀ t ∈ e.queue, t.work.IsRoutine) :
    ∀ t ∈ (e'.launch now task).1.queue, t.work.IsRoutine := by
  obtain ⟨-, -, hqueue, -⟩ := (next?_eq_some_iff ..).mp h
  intro t ht
  rcases mem_queue_launch ht with ht | hw
  · exact hq t (hqueue ▸ List.mem_cons_of_mem _ ht)
  · rw [hw]
    exact hq task (hqueue ▸ List.mem_cons_self)

/-- A **well-formed** server. -/
structure Server.WellFormed (s : Server) : Prop where
  global : s.plant.find? globalAddress = none
  selectable : ∀ {id p}, s.point? id = some p → p.mode = .selectAndExecute →
    p.type.isSelectable = true
  routine : ∀ t ∈ s.executor.queue, t.work.IsRoutine

/-- Every move leaves only duties periodic. -/
theorem Move.routine {d : Deed} {s s' : Server} (h : Move d s s')
    (hq : ∀ t ∈ s.executor.queue, t.work.IsRoutine) :
    ∀ t ∈ s'.executor.queue, t.work.IsRoutine := by
  have hdefer (u : Server) (hu : ∀ t ∈ u.executor.queue, t.work.IsRoutine) (delay : Int)
      (job : Job) : ∀ t ∈ (u.defer delay job).executor.queue, t.work.IsRoutine := by
    intro t ht
    rcases Server.mem_queue_defer u delay job ht with ⟨-, hw⟩ | ht
    · rw [hw]; trivial
    · exact hu t ht
  cases h with
  | note | handOver | write | plant | attach | callbacks | pass | grant | apply => exact hq
  | defer _ delay => exact hdefer s hq delay _
  | connection => rw [Server.executor_onConnectionEvent]; exact hq
  | start h =>
    obtain rfl | ⟨e₁, e₂, _, _, h₁, h₂, rfl⟩ := Server.start_cases h
    · exact hq
    · -- the two tasks of the duties are periodic, and they are duties
      intro t ht
      rw [(Executor.queue_addPeriodic h₂).2, Task.mem_place,
        (Executor.queue_addPeriodic h₁).2, Task.mem_place] at ht
      rcases ht with rfl | rfl | ht
      · exact ⟨_, rfl⟩
      · exact ⟨_, rfl⟩
      · exact hq t ht
  | stop => rw [Server.queue_stop]; exact hq
  | stopExecutor =>
    intro t ht
    exact hq t (Server.mem_queue_stopExecutor ht)
  -- only the sweep defers jobs of its own, and these are no periodic ones
  | @take _ task e h =>
    have hlaunch := Executor.routine_launch h hq
    unfold Server.undertake
    split
    · rw [Server.executor_releaseExecuted]; exact hlaunch
    · exact hlaunch
    · exact Server.dropExpired_induction (P := fun u => ∀ t ∈ u.executor.queue, t.work.IsRoutine) _
        hlaunch fun u _ _ hu => hdefer (u.note _) hu _ _
    · exact hlaunch
  | deactivate => rw [Server.executor_deactivate]; exact hq
  | conclude h =>
    rw [Server.concludeExecute_eq h.station]
    split
    · exact hq
    · exact hdefer (s.sendBack _ _) hq _ _

/-- Every move keeps a server well-formed. -/
theorem Move.wellFormed {d : Deed} {s s' : Server} (h : Move d s s') (hs : s.WellFormed) :
    s'.WellFormed where
  global := h.alters.follows.global hs.global
  selectable := by
    intro id p hp hmode
    -- the point was there before, or it was made from an admissible specification
    rcases h.alters.follows.known hp with ⟨a, ha, hsame, -⟩ | ⟨_, _, spec, hspec, rfl⟩
    · rw [hsame.type]
      exact hs.selectable ha (hsame.mode.symm.trans hmode)
    · exact hspec.isSelectable_of_mode hmode
  routine := h.routine hs.routine

/-- A new server is well-formed. -/
theorem Server.wellFormed_new {options : Options} {transport : Transport} {now : Int} {s : Server}
    (h : Server.new options transport now = .ok s) : s.WellFormed := by
  obtain rfl := Server.new_eq_ok h
  exact ⟨rfl, fun hp => by simp [Server.point?, Server.report, Server.note, Server.init,
    Plant.empty, PointStore.point?, PointStore.empty] at hp, fun t ht => by cases ht⟩

/-- Every visited server is well-formed. -/
theorem Server.Visited.wellFormed {s : Server} (h : s.Visited) : s.WellFormed := by
  induction h with
  | new h => exact Server.wellFormed_new h
  | move _ hm ih => exact hm.wellFormed ih

/-! ## What callbacks lead to -/

/-- What the callbacks of a point do is among some deeds. -/
def PointCallbacks.Within (deeds : Set Deed) (c : PointCallbacks) : Prop :=
  ∀ kind callback, c.get? kind = some callback → ∀ a ∈ callback.actions, a.Within deeds

/-- A server whose callbacks do nothing but some deeds. -/
structure Server.Hooked (deeds : Set Deed) (s : Server) : Prop where
  points : ∀ {id p}, s.point? id = some p → p.callbacks.Within deeds
  unexpected : ∀ {actions}, s.callbacks.unexpected = some actions →
    ∀ a ∈ actions, a.Within deeds
  octets : ∀ {sent actions}, s.callbacks.octets sent = some actions →
    ∀ a ∈ actions, a.Within deeds

/-- The callbacks of every server do only what callbacks reach. -/
theorem Server.hooked_inner (s : Server) : s.Hooked {d | d.IsInner} :=
  ⟨fun _ _ _ _ a _ => a.within_inner, fun _ a _ => a.within_inner, fun _ a _ => a.within_inner⟩

/-- A new point has no callbacks. -/
theorem Point.within_ofSpec (deeds : Set Deed) (station : CommonAddress) (now : Int)
    (spec : PointSpec) : (Point.ofSpec station now spec).callbacks.Within deeds := by
  intro kind callback h
  cases kind <;> cases h

/-- Only attaching a callback changes what callbacks do. -/
theorem Move.hooked {d : Deed} {s s' : Server} {deeds : Set Deed} (h : Move d s s')
    (hd : d ≠ .attach) (hs : s.Hooked deeds) : s'.Hooked deeds where
  points := by
    intro id p hp
    rcases h.alters.follows.known hp with ⟨a, ha, -, hc⟩ | ⟨station, now, spec, -, rfl⟩
    · rw [hc hd]
      exact hs.points ha
    · exact Point.within_ofSpec deeds station now spec
  unexpected := by rw [h.alters.callbacks hd]; exact hs.unexpected
  octets := by rw [h.alters.callbacks hd]; exact hs.octets

/-- A well-formed server whose callbacks do nothing but some deeds. -/
structure Server.Ready (deeds : Set Deed) (s : Server) : Prop where
  wellFormed : s.WellFormed
  hooked : s.Hooked deeds

namespace Moves

variable {deeds : Set Deed} {s s' : Server}

/-- Moves while callbacks may run keep what is known of a server and its callbacks. -/
theorem ready (hscope : Deed.Scope deeds) (h : Moves deeds s s') (hs : s.Ready deeds) :
    s'.Ready deeds := by
  refine h.induction (P := Server.Ready deeds) (fun {_ _ d} hd hm hu => ?_) hs
  -- callbacks attach no callbacks
  have hne : d ≠ .attach := by
    rintro rfl
    exact hscope.inner _ hd
  exact ⟨hm.wellFormed hu.wellFormed, hm.hooked hne hu.hooked⟩

/-- No time passes while callbacks may run. -/
theorem now_eq (hscope : Deed.Scope deeds) (h : Moves deeds s s') : s'.now = s.now := by
  refine h.induction (P := fun u => u.now = s.now) (fun {_ _ d} hd hm hu => ?_) rfl
  have hne : d ≠ .time := by
    rintro rfl
    exact hscope.inner _ hd
  exact (hm.alters.now hne).trans hu

/-- Points stay, and what was fixed when they were made stays with them. -/
theorem kept (h : Moves deeds s s') {id : PointId} {p : Point} (hp : s.point? id = some p) :
    ∃ q, s'.point? id = some q ∧ p.SameAs q := by
  refine h.induction (P := fun u => ∃ q, u.point? id = some q ∧ p.SameAs q) (fun _ hm hu => ?_)
    ⟨p, hp, .refl p⟩
  obtain ⟨q, hq, hpq⟩ := hu
  obtain ⟨r, hr, hqr, -⟩ := hm.alters.follows.kept hq
  exact ⟨r, hr, hpq.trans hqr⟩

/-- The options stay. -/
theorem options_eq (h : Moves deeds s s') : s'.options = s.options :=
  h.induction (P := fun u => u.options = s.options) (fun _ hm hu => hm.alters.options.trans hu) rfl

/-- The journal only grows. -/
theorem journal (h : Moves deeds s s') : s.journal <:+ s'.journal :=
  h.induction (P := fun u => s.journal <:+ u.journal) (fun _ hm hu => hu.trans hm.alters.journal)
    (List.suffix_refl _)

end Moves

end Telecontrol
