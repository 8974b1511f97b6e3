import Telecontrol.Proofs.Holdings
import Telecontrol.Proofs.Splitting

/-! # The members of a batch

A batch keeps handles, and the points behind them come and go without its knowledge. Who belongs to
it is therefore a matter of two things that change on their own: of the handles that were entered,
and of what the registry resolves. A handle that was given up resolves to nothing, and the handle of
a new point is none that was ever issued, so nobody becomes a member but by being entered.

A batch is put in a **setting**, the points that it may hold and the ledger of their registry, and
points are made, dropped, written to and entered in any order.

Main statements: `Batch.Setting.Sound.step` (what every event leaves true),
`Batch.Setting.Gone.step` (a point that was dropped stays away) and `Batch.membership_kept`. -/

namespace Telecontrol

namespace Batch

open Registry (Deal Ledger vacated)

/-- What a batch demands of its points. -/
def kindOf (p : Point) : TypeId × CommonAddress := (p.type, p.station)

/-- The members whose points are live, in the order of their addresses. -/
def liveMembers (b : Batch) (store : PointStore) : List Handle :=
  b.members.values.filter store.contains

section Entry

variable {b c : Batch} {store store' : PointStore} {h h' : Handle} {a : ObjectAddress} {pt : Point}

/-- The live members are those whose handles resolve. -/
theorem mem_liveMembers : h ∈ b.liveMembers store ↔
    (∃ a, b.members.find? a = some h) ∧ store.contains h = true := by
  rw [liveMembers, List.mem_filter, Table.mem_values]

/-- What is live among the members is a matter of the members only. -/
theorem liveMembers_congr
    (hstore : ∀ {a h}, b.members.find? a = some h → store'.contains h = store.contains h) :
    b.liveMembers store' = b.liveMembers store :=
  List.filter_congr fun h hmem => by
    obtain ⟨a, ha⟩ := (Table.mem_values ..).mp hmem
    exact hstore ha

/-- The live points are what the live members resolve to, one for one. -/
theorem Orderly.points_eq (hb : b.Orderly store) :
    (b.points store).map some = (b.liveMembers store).map store.get? := by
  have hlive {h : Handle} (hmem : h ∈ b.members.values) :
      store.contains h = true ↔ ∃ pt, store.get? h = some pt := by
    obtain ⟨a, ha⟩ := (Table.mem_values ..).mp hmem
    exact hb.contains_iff ha
  rw [points, liveMembers]
  -- the handles are those of any list whose members resolve when they live
  generalize b.members.values = hs at hlive
  induction hs with
  | nil => rfl
  | cons h hs ih =>
    have ih := ih fun hmem => hlive (List.mem_cons_of_mem _ hmem)
    have hh := hlive List.mem_cons_self
    cases hget : store.get? h with
    | none =>
      have hgone : ¬ store.contains h = true := by
        rw [hh, hget]
        rintro ⟨pt, hpt⟩
        cases hpt
      rw [List.filterMap_cons_none hget, List.filter_cons_of_neg hgone, ih]
    | some pt =>
      rw [List.filterMap_cons_some hget, List.filter_cons_of_pos (hh.mpr ⟨pt, hget⟩),
        List.map_cons, List.map_cons, ih, hget]

/-- An address is blocked exactly when a live point of the batch has it. -/
theorem Orderly.blocked_iff (hb : b.Orderly store) :
    (b.members.find? a).any store.contains = true ↔ ∃ q ∈ b.points store, q.address = a := by
  rw [Option.any_eq_true]
  constructor
  · rintro ⟨h, hmem, hlive⟩
    obtain ⟨q, hq⟩ := (hb.contains_iff hmem).mp hlive
    exact ⟨q, mem_points.mpr ⟨a, h, hmem, hq⟩, (hb.of_get? hmem hq).1⟩
  · rintro ⟨q, hq, rfl⟩
    obtain ⟨a, h, hmem, hget⟩ := mem_points.mp hq
    obtain rfl := (hb.of_get? hmem hget).1
    exact ⟨h, hmem, (hb.contains_iff hmem).mpr ⟨q, hget⟩⟩

/-- The batch finds no fault with a monitoring point of its kind whose address is not blocked. -/
theorem Orderly.fault?_eq_none_iff (hb : b.Orderly store) :
    b.fault? store pt = none ↔ pt.type.isMonitoring = true ∧
      (b.kind = none ∨ b.kind = some (kindOf pt)) ∧
      ∀ q ∈ b.points store, q.address ≠ pt.address := by
  have hblocked := hb.blocked_iff (a := pt.address)
  cases hkind : b.kind with
  | none =>
    rw [fault?, hkind, hb.points_eq_nil hkind]
    simp
  | some kind =>
    obtain ⟨type, station⟩ := kind
    have hfree : ¬ (b.members.find? pt.address).any store.contains = true ↔
        ∀ q ∈ b.points store, q.address ≠ pt.address := by
      rw [hblocked]
      exact not_exists.trans (forall_congr' fun q => not_and)
    rw [← hfree, fault?, hkind, kindOf]
    grind

/-- When a batch accepts a handle. -/
theorem Orderly.accepts_iff (hb : b.Orderly store) :
    (∃ c, b.add store h = .ok c) ↔ ∃ pt, store.get? h = some pt ∧ pt.type.isMonitoring = true ∧
      (b.kind = none ∨ b.kind = some (kindOf pt)) ∧
      ∀ q ∈ b.points store, q.address ≠ pt.address := by
  constructor
  · rintro ⟨c, ha⟩
    obtain ⟨pt, hget, hfault, -⟩ := (add_eq_ok_iff ..).mp ha
    exact ⟨pt, hget, hb.fault?_eq_none_iff.mp hfault⟩
  · rintro ⟨pt, hget, hfine⟩
    exact ⟨_, (add_eq_ok_iff ..).mpr ⟨pt, hget, hb.fault?_eq_none_iff.mpr hfine, rfl⟩⟩

/-- Who is accepted becomes a live member, and the others stay. -/
theorem Orderly.mem_liveMembers_add (hb : b.Orderly store) (ha : b.add store h = .ok c) :
    h' ∈ c.liveMembers store ↔ h' = h ∨ h' ∈ b.liveMembers store := by
  obtain ⟨pt, hget, hfault, rfl⟩ := (add_eq_ok_iff ..).mp ha
  have hlive : store.contains h = true := by
    obtain ⟨i, hi, -⟩ := Option.bind_eq_some_iff.mp hget
    exact (Registry.contains_iff ..).mpr ⟨i, hi⟩
  rw [mem_liveMembers, mem_liveMembers]
  constructor
  · rintro ⟨⟨a, hmem⟩, hlive'⟩
    rw [Table.find?_insert] at hmem
    split at hmem
    · exact .inl (Option.some.inj hmem).symm
    · exact .inr ⟨⟨a, hmem⟩, hlive'⟩
  · rintro (rfl | ⟨⟨a, hmem⟩, hlive'⟩)
    · exact ⟨⟨pt.address, Table.find?_insert_self ..⟩, hlive⟩
    · -- a live member is not at the address of a point that is accepted
      have hne : a ≠ pt.address := by
        rintro rfl
        obtain ⟨q, hq⟩ := (hb.contains_iff hmem).mp hlive'
        exact (hb.fault?_eq_none_iff.mp hfault).2.2 q (mem_points.mpr ⟨_, h', hmem, hq⟩)
          (hb.of_get? hmem hq).1
      exact ⟨⟨a, (Table.find?_insert_of_ne _ _ hne).trans hmem⟩, hlive'⟩

end Entry

/-! ## A batch in its setting -/

/-- A batch in its **setting**: the points that it may hold, and what has happened to their
registry. -/
structure Setting where
  store : PointStore
  deals : List (Deal PointId)
  batch : Batch

/-- What happens to a batch and to the points. -/
inductive Event where
  /-- A point is made. -/
  | make (p : Point)
  /-- A point is removed. -/
  | drop (h : Handle)
  /-- The values of a point are written. -/
  | write (id : PointId) (f : Point → Point) (hf : ∀ p : Point, p.SameAs (f p))
  /-- A point is entered into the batch. -/
  | enter (h : Handle)

namespace Setting

variable {s : Setting} {e : Event} {es : List Event} {h : Handle} {i : PointId}

/-- A new batch, and no points yet. -/
def opened (cause : Cause) (test negative : Bool) : Setting :=
  ⟨.empty, [], { cause, test, negative }⟩

/-- The registry of the points with its ledger. -/
def ledger (s : Setting) : Ledger PointId := ⟨s.store.registry, s.deals⟩

/-- What an event does. A point that the batch refuses is not entered. -/
def step (s : Setting) : Event → Setting
  | .make p =>
    { s with
      store := (s.store.insert p).1
      deals := (s.ledger.call (.insert s.store.points.size)).deals }
  | .drop h => { s with store := s.store.remove h, deals := (s.ledger.call (.remove h)).deals }
  | .write id f _ => { s with store := s.store.modify id f }
  | .enter h =>
    match s.batch.add s.store h with
    | .ok batch => { s with batch }
    | .error _ => s

/-- What several events do. -/
def after (s : Setting) (es : List Event) : Setting := es.foldl step s

/-- No events change nothing. -/
@[simp] theorem after_nil (s : Setting) : s.after [] = s := rfl

/-- The first event comes first. -/
@[simp] theorem after_cons (s : Setting) (e : Event) (es : List Event) :
    s.after (e :: es) = (s.step e).after es := rfl

/-- The live points of the batch. -/
def points (s : Setting) : List Point := s.batch.points s.store

/-- The live members of the batch. -/
def live (s : Setting) : List Handle := s.batch.liveMembers s.store

/-- The point that the batch accepts in an event. -/
def accepted? (s : Setting) : Event → Option Point
  | .enter h =>
    match s.batch.add s.store h with
    | .ok _ => s.store.get? h
    | .error _ => none
  | _ => none

/-- The points that the batch accepts, one after the other. -/
def accepted (s : Setting) : List Event → List Point
  | [] => []
  | e :: es => (s.accepted? e).toList ++ (s.step e).accepted es

/-- Slots are numbered with 32 bits and so are their generations: no more slots were made, and none
was vacated more often. -/
structure Bounded (s : Setting) : Prop where
  fits : s.store.registry.Fits
  vacated_lt : ∀ i, vacated i s.deals < 2 ^ 32

/-! ### What an event leads to -/

/-- The registry is called when points are made and removed. -/
theorem ledger_step (s : Setting) (e : Event) :
    (s.step e).ledger = s.ledger ∨ ∃ k, (s.step e).ledger = s.ledger.call k := by
  cases e with
  | make p => exact .inr ⟨.insert s.store.points.size, rfl⟩
  | drop h => exact .inr ⟨.remove h, rfl⟩
  | write id f hf => exact .inl rfl
  | enter h =>
    refine .inl ?_
    rw [step]
    split <;> rfl

/-- A point that is accepted changes the batch and nothing else. -/
theorem step_enter_ok {c : Batch} (ha : s.batch.add s.store h = .ok c) :
    s.step (.enter h) = { s with batch := c } := by
  rw [step, ha]

/-- A batch that refuses a point is as it was. -/
theorem step_enter_error {err : ServerError} (ha : s.batch.add s.store h = .error err) :
    s.step (.enter h) = s := by
  rw [step, ha]

/-- A setting is within the bounds when it is so after one more event. -/
theorem Bounded.of_step (hb : (s.step e).Bounded) : s.Bounded := by
  rcases s.ledger_step e with heq | ⟨k, heq⟩
  · exact ⟨(congrArg (·.registry.Fits) heq).mp hb.fits, fun i =>
      (congrArg (vacated i ·.deals < 2 ^ 32) heq).mp (hb.vacated_lt i)⟩
  · have hslots := s.ledger.slots_le_call k
    have hdeals := s.ledger.deals_suffix_call k
    rw [← heq] at hslots hdeals
    exact ⟨Nat.le_trans hslots hb.fits, fun i =>
      Nat.lt_of_le_of_lt (Registry.vacated_le_of_suffix hdeals) (hb.vacated_lt i)⟩

/-- So it is when it is within the bounds after any events. -/
theorem Bounded.of_after (hb : (s.after es).Bounded) : s.Bounded := by
  induction es generalizing s with
  | nil => exact hb
  | cons e es ih => exact (ih hb).of_step

/-- An accepted point fixes the kind of a batch that has none. -/
theorem kind_step (s : Setting) (e : Event) :
    (s.step e).batch.kind = s.batch.kind.or ((s.accepted? e).map kindOf) := by
  cases e with
  | enter h =>
    cases ha : s.batch.add s.store h with
    | error err => rw [step_enter_error ha, accepted?, ha, Option.map_none, Option.or_none]
    | ok c =>
      obtain ⟨pt, hget, hfault, rfl⟩ := (add_eq_ok_iff ..).mp ha
      rw [step_enter_ok ha, accepted?, ha, hget]
      cases hkind : s.batch.kind with
      | none => rfl
      | some kind =>
        rw [fault?, hkind] at hfault
        show some (pt.type, pt.station) = some kind
        grind
  | _ => exact (Option.or_none).symm

/-- The kind of a batch is that of the first point it accepts. -/
theorem kind_after (s : Setting) (es : List Event) :
    (s.after es).batch.kind = s.batch.kind.or ((s.accepted es).head?.map kindOf) := by
  induction es generalizing s with
  | nil => exact (Option.or_none).symm
  | cons e es ih =>
    rw [after_cons, ih, kind_step, Option.or_assoc, accepted]
    cases s.accepted? e <;> rfl

/-! ### What stays true -/

/-- A setting is **sound** when its ledger is kept, every live point has one handle, and the members
of the batch were issued and are what they were entered as. -/
structure Sound (s : Setting) : Prop where
  kept : s.ledger.Kept
  known : ∀ {h i}, s.store.resolve? h = some i → i < s.store.points.size
  single : ∀ {h h' i}, s.store.resolve? h = some i → s.store.resolve? h' = some i → h = h'
  issued : ∀ {a h}, s.batch.members.find? a = some h → ∃ i, .issued h i ∈ s.deals
  orderly : s.batch.Orderly s.store
  monitoring : ∀ {kind}, s.batch.kind = some kind → kind.1.isMonitoring = true

/-- A setting that is new is sound. -/
theorem sound_opened (cause : Cause) (test negative : Bool) :
    (opened cause test negative).Sound where
  kept := Ledger.kept_opened
  known {h _} hi := nomatch (Registry.get?_empty h).symm.trans hi
  single {h _ _} hi := nomatch (Registry.get?_empty h).symm.trans hi
  issued hmem := nomatch hmem
  orderly {_ _ _} hmem := nomatch hmem
  monitoring hkind := nomatch hkind

/-- What is issued for a new point. -/
theorem Sound.resolve?_make (hs : s.Sound) {p : Point} (hb : (s.step (.make p)).Bounded)
    (h : Handle) : (s.step (.make p)).store.resolve? h =
      if h = (s.store.insert p).2 then some s.store.points.size else s.store.resolve? h :=
  hs.kept.checked.insert s.store.points.size hb.fits h

/-- The handle of a new point was never issued before. -/
theorem Sound.fresh (hs : s.Sound) {p : Point} (hb : (s.step (.make p)).Bounded)
    (hissued : .issued h i ∈ s.deals) : h ≠ (s.store.insert p).2 := by
  rintro rfl
  exact hs.kept.not_issued hb.fits (hb.of_step.vacated_lt _) i hissued

/-- A handle that is dropped resolves to nothing, and all others resolve as before. -/
theorem resolve?_drop (s : Setting) (h h' : Handle) : (s.step (.drop h)).store.resolve? h' =
    if h' = h then none else s.store.resolve? h' := Registry.get?_remove s.store.registry h h'

/-- A new point gets a handle that no member has. -/
theorem Sound.make (hs : s.Sound) {p : Point} (hb : (s.step (.make p)).Bounded) :
    (s.step (.make p)).Sound := by
  have hresolve := hs.resolve?_make hb
  have hsize : (s.step (.make p)).store.points.size = s.store.points.size + 1 :=
    Array.size_push ..
  refine ⟨hs.kept.insert _ hb.fits, fun {h i} hi => ?_, fun {h h' i} hi hi' => ?_,
    fun hmem => ?_, fun {a h i} hmem hi => ?_, hs.monitoring⟩
  · rw [hresolve] at hi
    rw [hsize]
    split at hi
    · exact Option.some.inj hi ▸ Nat.lt_succ_self _
    · exact Nat.lt_succ_of_lt (hs.known hi)
  · rw [hresolve] at hi hi'
    -- the new number belongs to no handle of before
    split at hi <;> split at hi'
    · rename_i hh hh'
      rw [hh, hh']
    · exact absurd (hs.known hi') (Option.some.inj hi ▸ Nat.lt_irrefl _)
    · exact absurd (hs.known hi) (Option.some.inj hi' ▸ Nat.lt_irrefl _)
    · exact hs.single hi hi'
  · obtain ⟨i, hi⟩ := hs.issued hmem
    exact ⟨i, List.mem_cons_of_mem _ hi⟩
  · obtain ⟨j, hj⟩ := hs.issued hmem
    -- a member was issued before, so it does not resolve to the new point
    rw [hresolve, if_neg (hs.fresh hb hj)] at hi
    obtain ⟨pt, hpt, hrest⟩ := hs.orderly hmem hi
    exact ⟨pt, (Array.getElem?_push_lt (hs.known hi)).trans
      ((Array.getElem?_eq_getElem (hs.known hi)).symm.trans hpt), hrest⟩

/-- What resolves after a point was removed resolved before. -/
theorem resolve?_of_drop {h' : Handle} (hi : (s.step (.drop h)).store.resolve? h' = some i) :
    s.store.resolve? h' = some i := by
  rw [resolve?_drop] at hi
  split at hi
  · cases hi
  · exact hi

/-- A point that is accepted is entered with its handle. -/
theorem Sound.enter (hs : s.Sound) {c : Batch} (ha : s.batch.add s.store h = .ok c) :
    (s.step (.enter h)).Sound := by
  rw [step_enter_ok ha]
  have horderly : c.Orderly s.store := Orderly.add hs.orderly ha
  obtain ⟨pt, hget, hfault, rfl⟩ := (add_eq_ok_iff ..).mp ha
  refine ⟨hs.kept, hs.known, hs.single, fun {a h'} hmem => ?_, horderly, fun hkind => ?_⟩
  · rw [Table.find?_insert] at hmem
    split at hmem
    · obtain ⟨i, hi, -⟩ := Option.bind_eq_some_iff.mp hget
      exact ⟨i, Option.some.inj hmem ▸ hs.kept.issued_of_get? hi⟩
    · exact hs.issued hmem
  · rw [← Option.some.inj hkind]
    exact (Orderly.fault?_eq_none_iff hs.orderly |>.mp hfault).1

/-- Every event leaves the setting sound. -/
theorem Sound.step (hs : s.Sound) (e : Event) (hb : (s.step e).Bounded) : (s.step e).Sound := by
  cases e with
  | make p => exact hs.make hb
  | drop h =>
    exact ⟨hs.kept.remove h, fun hi => hs.known (resolve?_of_drop hi),
      fun hi hi' => hs.single (resolve?_of_drop hi) (resolve?_of_drop hi'),
      fun hmem => (hs.issued hmem).imp fun i hi => (s.ledger.deals_suffix_call _).mem hi,
      fun hmem hi => hs.orderly hmem (resolve?_of_drop hi), hs.monitoring⟩
  | write id f hf =>
    have hsize : (s.step (.write id f hf)).store.points.size = s.store.points.size :=
      Array.size_modify
    exact ⟨hs.kept, fun hi => hsize ▸ hs.known hi, hs.single, hs.issued,
      Orderly.modify hs.orderly id hf, hs.monitoring⟩
  | enter h =>
    cases ha : s.batch.add s.store h with
    | error err => rwa [step_enter_error ha]
    | ok c => exact hs.enter ha

/-- Every event of a run leaves the setting sound. -/
theorem Sound.after (hs : s.Sound) (es : List Event) (hb : (s.after es).Bounded) :
    (s.after es).Sound := by
  induction es generalizing s with
  | nil => exact hs
  | cons e es ih => exact ih (hs.step e (Bounded.of_after hb)) hb

/-! ### What an event does to the members -/

/-- A new point is no member. -/
theorem Sound.live_make (hs : s.Sound) {p : Point} (hb : (s.step (.make p)).Bounded) :
    (s.step (.make p)).live = s.live := by
  refine liveMembers_congr fun {a h} hmem => ?_
  obtain ⟨i, hi⟩ := hs.issued hmem
  have hresolve := hs.resolve?_make hb h
  rw [if_neg (hs.fresh hb hi)] at hresolve
  exact congrArg Option.isSome hresolve

/-- A point that is removed is no member any more, and nobody else leaves. -/
theorem live_drop (s : Setting) (h : Handle) :
    (s.step (.drop h)).live = s.live.filter (· ≠ h) := by
  rw [live, live, liveMembers, liveMembers, List.filter_filter]
  refine List.filter_congr fun h' _ => ?_
  have hresolve := s.resolve?_drop h h'
  show ((s.step (.drop h)).store.resolve? h').isSome = _
  rw [hresolve]
  by_cases hh : h' = h
  · simp [hh]
  · simp only [hh, if_false, ne_eq, not_false_eq_true, decide_true, Bool.true_and]
    rfl

/-! ### Points that are gone -/

/-- The point of a handle is **gone** when the handle was issued but resolves no longer, and no
other handle resolves to the point. -/
structure Gone (s : Setting) (h : Handle) (i : PointId) : Prop where
  issued : ∃ j, .issued h j ∈ s.deals
  handle : s.store.resolve? h = none
  made : i < s.store.points.size
  point : ∀ h', s.store.resolve? h' ≠ some i

/-- A point that is removed is gone. -/
theorem Sound.gone_drop (hs : s.Sound) (hi : s.store.resolve? h = some i) :
    (s.step (.drop h)).Gone h i where
  issued := ⟨i, (s.ledger.deals_suffix_call _).mem (hs.kept.issued_of_get? hi)⟩
  handle := (s.resolve?_drop h h).trans (if_pos rfl)
  made := hs.known hi
  point h' hi' := by
    rw [resolve?_drop] at hi'
    split at hi'
    · cases hi'
    · rename_i hne
      exact hne (hs.single hi' hi)

/-- A point that is gone stays gone, whatever is made in its place. -/
theorem Gone.step (hg : s.Gone h i) (hs : s.Sound) (e : Event) (hb : (s.step e).Bounded) :
    (s.step e).Gone h i := by
  obtain ⟨⟨j, hj⟩, hhandle, hmade, hpoint⟩ := hg
  cases e with
  | make p =>
    -- the new point has a number that was not given before, and its handle is new as well
    refine ⟨⟨j, List.mem_cons_of_mem _ hj⟩, ?_, ?_, fun h' => ?_⟩
    · rw [hs.resolve?_make hb, if_neg (hs.fresh hb hj), hhandle]
    · exact Nat.lt_of_lt_of_eq (Nat.lt_succ_of_lt hmade) (Array.size_push ..).symm
    · rw [hs.resolve?_make hb]
      split
      · exact fun heq => Nat.ne_of_gt hmade (Option.some.inj heq)
      · exact hpoint h'
  | drop h' =>
    refine ⟨⟨j, (s.ledger.deals_suffix_call _).mem hj⟩, ?_, hmade,
      fun h'' hi => hpoint h'' (resolve?_of_drop hi)⟩
    -- the handle that is dropped may be that of the point itself, which changes nothing
    rw [resolve?_drop, hhandle, ite_self]
  | write id f hf =>
    exact ⟨⟨j, hj⟩, hhandle, Nat.lt_of_lt_of_eq hmade Array.size_modify.symm, hpoint⟩
  | enter h' =>
    cases ha : s.batch.add s.store h' with
    | error err =>
      rw [step_enter_error ha]
      exact ⟨⟨j, hj⟩, hhandle, hmade, hpoint⟩
    | ok c =>
      rw [step_enter_ok ha]
      exact ⟨⟨j, hj⟩, hhandle, hmade, hpoint⟩

/-- A point that is gone stays gone. -/
theorem Gone.after (hg : s.Gone h i) (hs : s.Sound) (es : List Event) (hb : (s.after es).Bounded) :
    (s.after es).Gone h i := by
  induction es generalizing s with
  | nil => exact hg
  | cons e es ih =>
    have hstep : (s.step e).Bounded := Bounded.of_after hb
    exact ih (hg.step hs e hstep) (hs.step e hstep) hb

/-! ## Membership -/

/-- Who **belongs** to a batch, now and after what happens next. -/
structure Membership (s : Setting) : Prop where
  /-- The live points are what the live members resolve to, one for one. -/
  live : s.points.map some = s.live.map s.store.get?
  /-- They are monitoring points of the batch's type and station, by ascending address. -/
  uniform : ∀ p ∈ s.points, s.batch.kind = some (kindOf p) ∧ p.type.isMonitoring = true
  ascending : s.points.Pairwise fun p q => p.address < q.address
  /-- The kind of the batch stays. -/
  kind : ∀ kind later, s.batch.kind = some kind → (s.after later).batch.kind = some kind
  /-- A handle is accepted exactly when it resolves to a monitoring point of the batch's kind whose
  address no live point of the batch has. -/
  accepts : ∀ h, (∃ c, s.batch.add s.store h = .ok c) ↔
    ∃ p, s.store.get? h = some p ∧ p.type.isMonitoring = true ∧
      (s.batch.kind = none ∨ s.batch.kind = some (kindOf p)) ∧ ∀ q ∈ s.points, q.address ≠ p.address
  /-- Who is accepted becomes a member. -/
  accepted : ∀ h c, s.batch.add s.store h = .ok c →
    ∀ h', h' ∈ (s.step (.enter h)).live ↔ h' = h ∨ h' ∈ s.live
  /-- If a handle is refused, the batch is as it was. -/
  refused : ∀ h err, s.batch.add s.store h = .error err → s.step (.enter h) = s
  /-- Nobody becomes a member because a point is made, or written to. -/
  made : ∀ p, (s.step (.make p)).Bounded → (s.step (.make p)).live = s.live
  written : ∀ id f hf, (s.step (.write id f hf)).live = s.live
  /-- A member that is removed leaves at once, alone, and for good. -/
  removed : ∀ h, (s.step (.drop h)).live = s.live.filter (· ≠ h) ∧
    ∀ i later, s.store.resolve? h = some i → ((s.step (.drop h)).after later).Bounded →
      ((s.step (.drop h)).after later).store.resolve? h = none ∧
      ∀ h', ((s.step (.drop h)).after later).store.resolve? h' ≠ some i
  size : s.batch.size s.store = s.points.length
  hasPoints : s.batch.hasPoints s.store = true ↔ s.points ≠ []
  /-- The points are a sequence when their addresses are without gaps. -/
  isSequence : s.batch.isSequence s.store = true ↔ Gapless (s.points.map (·.address))

/-- In a sound setting members belong to the batch. -/
theorem Sound.membership (hs : s.Sound) : s.Membership := by
  have hsize : s.batch.size s.store = s.points.length := by
    rw [size, Orderly.liveAddresses_eq hs.orderly, List.length_map, points]
  refine ⟨Orderly.points_eq hs.orderly, fun p hp => ?_, Orderly.pairwise_points hs.orderly,
    fun kind later hkind => ?_, fun h => Orderly.accepts_iff hs.orderly, fun h c ha h' => ?_,
    fun h err ha => step_enter_error ha, fun p hb => hs.live_make hb, fun id f hf => rfl,
    fun h => ⟨s.live_drop h, fun i later hi hb => ?_⟩, hsize, ?_,
    Orderly.isSequence_iff hs.orderly⟩
  · obtain ⟨a, h, hmem, hget⟩ := mem_points.mp hp
    have hkind := (Orderly.of_get? hs.orderly hmem hget).2
    exact ⟨hkind, hs.monitoring hkind⟩
  · rw [kind_after, hkind]
    rfl
  · rw [step_enter_ok ha]
    exact Orderly.mem_liveMembers_add hs.orderly ha
  · have hstep : (s.step (.drop h)).Bounded := Bounded.of_after hb
    have hgone := (hs.gone_drop hi).after (hs.step _ hstep) later hb
    exact ⟨hgone.handle, hgone.point⟩
  · rw [hasPoints, hsize, decide_eq_true_eq, List.length_pos_iff]

end Setting

open Setting

/-- **Batch membership.** Whatever happens to a batch and its points, as long as the registry has
not run out of numbers: the first accepted point fixes the kind of the batch, and the batch consists
of the points that were accepted and not removed. -/
theorem membership_kept (cause : Cause) (test negative : Bool) (es : List Event)
    (hb : ((opened cause test negative).after es).Bounded) :
    ((opened cause test negative).after es).batch.kind =
        ((opened cause test negative).accepted es).head?.map kindOf ∧
      ((opened cause test negative).after es).Membership :=
  ⟨kind_after (opened cause test negative) es,
    ((sound_opened cause test negative).after es hb).membership⟩

/-- Two points are entered. One is removed, and another point takes its slot and its address. -/
def sampleEvents : List Event :=
  [.make (.ofSpec 1 0 { address := 10, type := .M_SP_NA_1 }),
    .make (.ofSpec 1 0 { address := 12, type := .M_SP_NA_1 }),
    .enter ⟨0, 0⟩, .enter ⟨1, 0⟩, .drop ⟨0, 0⟩,
    .make (.ofSpec 1 0 { address := 10, type := .M_SP_NA_1 })]

/-- The new point is no member, but it can be entered. -/
theorem sample_membership_kept :
    let s := (opened .spontaneous false false).after sampleEvents
    s.Bounded ∧ s.live = [⟨1, 0⟩] ∧ (s.step (.enter ⟨0, 0⟩)).live = s.live ∧
      (s.step (.enter ⟨0, 1⟩)).live = [⟨0, 1⟩, ⟨1, 0⟩] ∧
      s.batch.kind = some (.M_SP_NA_1, 1) ∧ s.Membership := by
  have hb : ((opened .spontaneous false false).after sampleEvents).Bounded :=
    ⟨by decide +kernel, fun i => Nat.lt_of_le_of_lt List.countP_le_length (by decide +kernel)⟩
  exact ⟨hb, by decide +kernel, by decide +kernel, by decide +kernel,
    (membership_kept .spontaneous false false sampleEvents hb).1.trans (by decide +kernel),
    (membership_kept .spontaneous false false sampleEvents hb).2⟩

end Batch

end Telecontrol
