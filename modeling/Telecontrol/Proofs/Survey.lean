import Telecontrol.Proofs.Ownership
import Telecontrol.Server.Interrogation

/-! # What an interrogation comes to

An interrogation looks at the points of one station after the other and prepares those that are
**eligible** for its cause. When the callbacks of points do no more than write their own points and
remove points, all this happens within the plant: a **survey** is what becomes of the plant while
the points of a station are looked at, and the points that were found eligible.

Main statements: `Plant.Owns.mem_survey` (a point is found as it was when the survey began),
`Plant.Owns.survey_complete` (every eligible point that is still live afterwards is found) and
`Plant.reportedAt?_survey` (exactly the points found are marked by a cyclic survey). -/

namespace Telecontrol

open Ranked (rank)

/-! ## Eligible points -/

/-- An action that stays with the points: it writes the point of its callback or removes a point. -/
def Action.IsLocal : Action → Prop
  | .setValue _ | .setQuality _ | .setReportInterval _ | .removePoint .. => True
  | _ => False

instance (a : Action) : Decidable a.IsLocal :=
  match a with
  | .setValue _ | .setQuality _ | .setReportInterval _ | .removePoint .. => isTrue trivial
  | .transmit _ | .connection .. | .inbound .. | .stop | .panic _ => isFalse id

/-- The callback of a point that an interrogation with a cause calls. -/
def Cause.hook (cause : Cause) : PointCallback :=
  if cause = .periodic then .beforeReport else .beforeRead

/-- A point is **eligible** for a cause: for a cyclic report when it is a monitoring point whose
interval is positive and over, for a counter interrogation when it is an integrated total, and
otherwise when it may be read. -/
def Point.Eligible (p : Point) (cause : Cause) (now : Int) : Prop :=
  match cause with
  | .periodic => p.type.isMonitoring = true ∧ 0 < p.reportInterval ∧
      p.reportedAt + p.reportInterval ≤ clockCount now
  | .requestedByGeneralCounter => p.type.isCounter = true
  | _ => p.type.isReadable = true

/-- An interrogation asks for the eligible points. -/
theorem Point.isAskedFor_iff (p : Point) (cause : Cause) (now : Int) :
    p.isAskedFor cause now = true ↔ p.Eligible cause now := by
  cases cause with
  | periodic =>
    show (p.type.isMonitoring && isDue p.nextReport? now) = true ↔ _ ∧ _
    rw [Bool.and_eq_true, isDue, Option.any_eq_true]
    refine and_congr_right fun _ => ⟨?_, ?_⟩
    · rintro ⟨t, ht, hle⟩
      obtain ⟨hpos, rfl⟩ := (p.nextReport?_eq_some_iff t).mp ht
      exact ⟨hpos, of_decide_eq_true hle⟩
    · rintro ⟨hpos, hle⟩
      exact ⟨_, (p.nextReport?_eq_some_iff _).mpr ⟨hpos, rfl⟩, decide_eq_true hle⟩
  | _ => exact Iff.rfl

/-- Only monitoring points are eligible. -/
theorem Point.Eligible.isMonitoring {p : Point} {cause : Cause} {now : Int}
    (h : p.Eligible cause now) : p.type.isMonitoring = true := by
  have hcounter (t : TypeId) (ht : t.isCounter = true) : t.isMonitoring = true := by
    cases t <;> first | rfl | cases ht
  have hreadable (t : TypeId) (ht : t.isReadable = true) : t.isMonitoring = true := by
    rw [TypeId.isReadable, Bool.and_eq_true, Bool.and_eq_true] at ht
    exact ht.1.1
  unfold Eligible at h
  split at h
  · exact h.1
  · exact hcounter _ h
  · exact hreadable _ h

namespace Plant

variable {p q r : Plant} {now : Int} {cause : Cause} {i : PointId} {h : Handle} {ca : CommonAddress}
  {written more : Set PointId}

/-! ## What callbacks do to the plant -/

/-- What an action of the callback of a point does to the plant, if it stays with the points. -/
def act (p : Plant) (now : Int) (own : PointId) : Action → Plant
  | .setValue value => p.modifyPoint own fun a => { a with value, updated := some now }
  | .setQuality quality => p.modifyPoint own fun a => { a with quality }
  | .setReportInterval ms => p.modifyPoint own fun a => { a with reportInterval := ms }
  | .removePoint station address => (p.find? station).elim p fun id => (p.removePoint id address).1
  | _ => p

/-- What several actions do, in order. -/
def actAll (p : Plant) (now : Int) (own : PointId) (actions : List Action) : Plant :=
  actions.foldl (fun q a => q.act now own a) p

/-- What calling a callback of a point does. -/
def afterCall (p : Plant) (now : Int) (kind : PointCallback) (i : PointId) : Plant :=
  match (p.points.point? i).bind (·.callbacks.get? kind) with
  | none => p
  | some callback => p.actAll now i callback.actions

/-- What preparing a point for an interrogation does: its callback is called, and a cyclic report is
noted. -/
def prepared (p : Plant) (cause : Cause) (now : Int) (i : PointId) : Plant :=
  if cause = .periodic then
    (p.afterCall now cause.hook i).modifyPoint i (·.markReported (clockCount now))
  else p.afterCall now cause.hook i

/-- The callbacks of a kind stay with the points. -/
def HooksLocal (kind : PointCallback) (p : Plant) : Prop :=
  ∀ {i a callback}, p.points.point? i = some a → a.callbacks.get? kind = some callback →
    ∀ x ∈ callback.actions, x.IsLocal

/-- A plant is **tended** when points are removed and some points are written, and nothing else. -/
structure Tends (written : Set PointId) (p q : Plant) : Prop where
  roster : q.roster = p.roster
  size : q.points.points.size = p.points.points.size
  resolve? : ∀ {h i}, q.points.resolve? h = some i → p.points.resolve? h = some i
  listed : ∀ {id a h}, q.handle? id a = some h → p.handle? id a = some h
  unlisted : ∀ {id a h i}, p.handle? id a = some h → q.points.resolve? h = some i →
    q.handle? id a = some h
  point : ∀ {i a}, p.points.point? i = some a → ∃ b, q.points.point? i = some b ∧ a.SameAs b ∧
    b.callbacks = a.callbacks ∧ (i ∉ written → b = a)

namespace Tends

/-- A plant that stays as it is tends to itself. -/
theorem refl (p : Plant) : p.Tends written p :=
  ⟨rfl, rfl, fun h => h, fun h => h, fun h _ => h,
    fun {_ a} h => ⟨a, h, .refl a, rfl, fun _ => rfl⟩⟩

/-- Ways follow each other, with the same points written. -/
theorem trans (hpq : p.Tends written q) (hqr : q.Tends written r) : p.Tends written r where
  roster := hqr.roster.trans hpq.roster
  size := hqr.size.trans hpq.size
  resolve? h := hpq.resolve? (hqr.resolve? h)
  listed h := hpq.listed (hqr.listed h)
  unlisted hl hr := hqr.unlisted (hpq.unlisted hl (hqr.resolve? hr)) hr
  point ha := by
    obtain ⟨b, hb, hab, hcall, heq⟩ := hpq.point ha
    obtain ⟨c, hc, hbc, hcall', heq'⟩ := hqr.point hb
    exact ⟨c, hc, hab.trans hbc, hcall'.trans hcall, fun hi => (heq' hi).trans (heq hi)⟩

/-- More points may count as written. -/
theorem mono (hpq : p.Tends written q) (hsub : written ⊆ more) : p.Tends more q where
  roster := hpq.roster
  size := hpq.size
  resolve? := hpq.resolve?
  listed := hpq.listed
  unlisted := hpq.unlisted
  point ha := by
    obtain ⟨b, hb, hab, hcall, heq⟩ := hpq.point ha
    exact ⟨b, hb, hab, hcall, fun hi => heq fun hw => hi (hsub hw)⟩

/-- A point that is there afterwards was there before. -/
theorem point_before (hpq : p.Tends written q) {b : Point} (hb : q.points.point? i = some b) :
    ∃ a, p.points.point? i = some a ∧ a.SameAs b ∧ b.callbacks = a.callbacks ∧
      (i ∉ written → b = a) := by
  have hlt : i < p.points.points.size := hpq.size ▸ (Array.getElem?_eq_some_iff.mp hb).1
  have ha := Array.getElem?_eq_getElem hlt
  obtain ⟨c, hc, hac, hcall, heq⟩ := hpq.point ha
  obtain rfl := Option.some.inj (hb.symm.trans hc)
  exact ⟨_, ha, hac, hcall, heq⟩

/-- Stations are found as before. -/
theorem find? (hpq : p.Tends written q) (ca : CommonAddress) : q.find? ca = p.find? ca := by
  rw [Plant.find?, hpq.roster, Plant.find?]

/-- Callbacks that stay with their points go on doing so. -/
theorem hooksLocal (hpq : p.Tends written q) {kind : PointCallback} (hl : p.HooksLocal kind) :
    q.HooksLocal kind := by
  intro i b callback hb hcallback
  obtain ⟨a, ha, -, hcall, -⟩ := hpq.point_before hb
  exact hl ha (hcall ▸ hcallback)

/-- The plant stays orderly. -/
theorem orderly (hpq : p.Tends written q) (ho : p.Orderly) : q.Orderly := by
  intro ca id a h i hid hh hi
  obtain ⟨b, hb, hst, haddr⟩ := ho (hpq.find? ca ▸ hid) (hpq.listed hh) (hpq.resolve? hi)
  obtain ⟨c, hc, hbc, -, -⟩ := hpq.point hb
  exact ⟨c, hc, hbc.station.trans hst, hbc.address.trans haddr⟩

/-- Writing to a point what is not fixed. -/
theorem modifyPoint (p : Plant) (i : PointId) {f : Point → Point} (hf : ∀ a : Point, a.SameAs (f a))
    (hc : ∀ a : Point, (f a).callbacks = a.callbacks) : p.Tends {i} (p.modifyPoint i f) where
  roster := rfl
  size := Array.size_modify
  resolve? h := h
  listed h := h
  unlisted h _ := h
  point {j a} ha := by
    show ∃ b, (p.points.modify i f).point? j = some b ∧ _
    rw [PointStore.point?_modify, ha]
    split
    · rename_i hij
      exact ⟨f a, rfl, hf a, hc a, fun hj => absurd hij.symm hj⟩
    · exact ⟨a, rfl, .refl a, rfl, fun _ => rfl⟩

/-- Removing a point. -/
theorem removePoint (p : Plant) (id : StationId) (a : ObjectAddress) :
    p.Tends written (p.removePoint id a).1 := by
  have hshrink := Shrinks.removePoint p id a
  refine ⟨?_, by rw [hshrink.points], hshrink.resolve?, hshrink.listed,
    fun {id' a' h i} hh hi => ?_, fun {j b} hb => ⟨b, ?_, .refl b, rfl, fun _ => rfl⟩⟩
  · rw [Plant.removePoint]
    split <;> rfl
  · rw [Plant.removePoint] at hi ⊢
    cases hgone : p.handle? id a with
    | none => exact hh
    | some gone =>
      rw [hgone] at hi
      have hi : (p.points.registry.remove gone).get? h = some i := hi
      have hne : h ≠ gone := by
        rintro rfl
        rw [Registry.get?_remove, if_pos rfl] at hi
        cases hi
      show ((p.modifyStation id _).station id').handle? a' = some h
      rw [station_modifyStation]
      split
      · rename_i hid
        -- the entry that is dropped is of the handle that is given up
        rw [Station.handle?, Table.find?_erase, if_neg]
        · exact hh
        · intro ha
          obtain rfl := hid.1
          obtain rfl := Ranked.rank_injective ha
          exact hne (Option.some.inj (hh.symm.trans hgone))
      · exact hh
  · rw [PointStore.point?, hshrink.points]
    exact hb

end Tends

/-- An action that stays with the points tends the plant. -/
theorem tends_act (p : Plant) (now : Int) (own : PointId) {a : Action} (ha : a.IsLocal) :
    p.Tends {own} (p.act now own a) := by
  cases a with
  | setValue | setQuality | setReportInterval =>
    exact .modifyPoint p own (fun _ => ⟨rfl, rfl, rfl, rfl, rfl, rfl⟩) fun _ => rfl
  | removePoint station address =>
    rw [act]
    cases p.find? station with
    | none => exact .refl p
    | some id => exact .removePoint p id address
  | _ => cases ha

/-- Local actions write the point they belong to and no other one. -/
theorem tends_actAll (p : Plant) (now : Int) (own : PointId) {actions : List Action}
    (ha : ∀ a ∈ actions, a.IsLocal) : p.Tends {own} (p.actAll now own actions) :=
  List.foldlRecOn (motive := p.Tends {own}) actions _ (.refl p) fun _ hq a hmem =>
    hq.trans (tends_act _ now own (ha a hmem))

/-- So does a local callback that is called. -/
theorem tends_afterCall {kind : PointCallback} (hl : p.HooksLocal kind) (now : Int) (i : PointId) :
    p.Tends {i} (p.afterCall now kind i) := by
  rw [afterCall]
  cases hcallback : (p.points.point? i).bind (·.callbacks.get? kind) with
  | none => exact .refl p
  | some callback =>
    obtain ⟨a, ha, hc⟩ := Option.bind_eq_some_iff.mp hcallback
    exact tends_actAll p now i (hl ha hc)

/-- Preparing a point writes to no other point. -/
theorem tends_prepared (hl : p.HooksLocal cause.hook) (now : Int) (i : PointId) :
    p.Tends {i} (p.prepared cause now i) := by
  have hcall := tends_afterCall hl now i
  rw [prepared]
  split
  · exact hcall.trans (.modifyPoint _ i (fun _ => ⟨rfl, rfl, rfl, rfl, rfl, rfl⟩) fun _ => rfl)
  · exact hcall

/-! ## Marks of cyclic reports -/

/-- When a point was reported last. -/
def reportedAt? (p : Plant) (i : PointId) : Option UInt64 :=
  (p.points.point? i).map (·.reportedAt)

/-- The marks of all points stay when the change of a point leaves its own mark alone. -/
theorem reportedAt?_modifyPoint (p : Plant) (i j : PointId) {f : Point → Point}
    (hf : ∀ a : Point, (f a).reportedAt = a.reportedAt) :
    (p.modifyPoint i f).reportedAt? j = p.reportedAt? j := by
  show ((p.points.modify i f).point? j).map _ = _
  rw [PointStore.point?_modify, reportedAt?]
  split
  · cases p.points.point? j with
    | none => rfl
    | some a => exact congrArg some (hf a)
  · rfl

/-- Callbacks that stay with the points leave the marks alone. -/
theorem reportedAt?_act (p : Plant) (now : Int) (own j : PointId) (a : Action) :
    (p.act now own a).reportedAt? j = p.reportedAt? j := by
  cases a with
  | setValue | setQuality | setReportInterval => exact reportedAt?_modifyPoint p own j fun _ => rfl
  | removePoint station address =>
    rw [act]
    cases p.find? station with
    | none => rfl
    | some id =>
      show ((p.removePoint id address).1).reportedAt? j = _
      rw [reportedAt?, PointStore.point?, (Shrinks.removePoint p id address).points]
      rfl
  | _ => rfl

/-- Calling a callback moves no mark. -/
theorem reportedAt?_afterCall (p : Plant) (now : Int) (kind : PointCallback) (i j : PointId) :
    (p.afterCall now kind i).reportedAt? j = p.reportedAt? j := by
  rw [afterCall]
  split
  · rfl
  · exact List.foldlRecOn (motive := fun q : Plant => q.reportedAt? j = p.reportedAt? j) _ _ rfl
      fun q hq a _ => (reportedAt?_act q now i j a).trans hq

/-- Preparing a point for a cyclic report marks it, and otherwise no point is marked. -/
theorem reportedAt?_prepared (p : Plant) (cause : Cause) (now : Int) (i j : PointId) :
    (p.prepared cause now i).reportedAt? j =
      if cause = .periodic ∧ j = i then (p.reportedAt? j).map fun _ => clockCount now
      else p.reportedAt? j := by
  rw [prepared]
  by_cases hc : cause = .periodic
  · rw [if_pos hc]
    show (((p.afterCall now cause.hook i).points.modify i _).point? j).map _ = _
    have hj := p.reportedAt?_afterCall now cause.hook i j
    rw [PointStore.point?_modify]
    by_cases hij : i = j
    · rw [if_pos hij, if_pos ⟨hc, hij.symm⟩, ← hj, reportedAt?, Option.map_map, Option.map_map]
      rfl
    · rw [if_neg hij, if_neg fun h => hij h.2.symm]
      exact hj
  · rw [if_neg hc, if_neg fun h => hc h.1]
    exact p.reportedAt?_afterCall now cause.hook i j

end Plant

/-! ## Surveys -/

/-- A point that a survey comes to and **finds** eligible: its handle, its number and the point as
it was then. -/
structure Find where
  handle : Handle
  id : PointId
  point : Point

namespace Plant

/-- What a survey finds at a handle. -/
def look? (p : Plant) (cause : Cause) (now : Int) (h : Handle) : Option Find := do
  let id ← p.points.resolve? h
  let point ← p.points.point? id
  if point.isAskedFor cause now then some ⟨h, id, point⟩ else none

/-- A **survey** of points in turn: what is found, and the plant when all were looked at. -/
def survey (cause : Cause) (now : Int) : Plant → List Handle → List Find × Plant
  | p, [] => ([], p)
  | p, h :: rest =>
    match p.look? cause now h with
    | none => survey cause now p rest
    | some x =>
      let (xs, q) := survey cause now (p.prepared cause now x.id) rest
      (x :: xs, q)

variable {p q : Plant} {now : Int} {cause : Cause} {i : PointId} {h : Handle} {a : ObjectAddress}
  {ca : CommonAddress} {x : Find} {es : List (ObjectAddress × Handle)} {written : Set PointId}

/-- A handle is looked up successfully when it resolves to a point that is eligible, and the
sighting is of this handle and point. -/
theorem look?_eq_some_iff : p.look? cause now h = some x ↔
    x.handle = h ∧ p.points.resolve? h = some x.id ∧ p.points.point? x.id = some x.point ∧
      x.point.Eligible cause now := by
  simp only [look?, bind, Option.bind_eq_some_iff, Option.ite_none_right_eq_some,
    Point.isAskedFor_iff, Option.some.injEq]
  constructor
  · rintro ⟨i, hi, pt, hpt, hel, rfl⟩
    exact ⟨rfl, hi, hpt, hel⟩
  · rintro ⟨rfl, hi, hpt, hel⟩
    exact ⟨x.id, hi, x.point, hpt, hel, rfl⟩

/-- A point that is not eligible is passed over. -/
theorem survey_cons_none (rest : List Handle) (hx : p.look? cause now h = none) :
    p.survey cause now (h :: rest) = p.survey cause now rest := by
  rw [survey, hx]

/-- A point that is eligible is prepared, and the survey goes on from there. -/
theorem survey_cons_some (rest : List Handle) (hx : p.look? cause now h = some x) :
    p.survey cause now (h :: rest) =
      (x :: ((p.prepared cause now x.id).survey cause now rest).1,
        ((p.prepared cause now x.id).survey cause now rest).2) := by
  rw [survey, hx]

/-- A survey writes to the points that it finds. -/
theorem tends_survey (hl : p.HooksLocal cause.hook) (hs : List Handle) :
    p.Tends {i | ∃ x ∈ (p.survey cause now hs).1, x.id = i} (p.survey cause now hs).2 := by
  induction hs generalizing p with
  | nil => exact .refl p
  | cons h rest ih =>
    cases hx : p.look? cause now h with
    | none =>
      rw [survey_cons_none rest hx]
      exact ih hl
    | some x =>
      have hprep := tends_prepared hl now x.id
      rw [survey_cons_some rest hx]
      refine (hprep.mono ?_).trans ((ih (hprep.hooksLocal hl)).mono ?_)
      · rintro _ rfl
        exact ⟨x, List.mem_cons_self, rfl⟩
      · rintro _ ⟨y, hy, rfl⟩
        exact ⟨y, List.mem_cons_of_mem x hy, rfl⟩

/-- A cyclic survey marks exactly the points that it finds; no other survey marks any. -/
theorem reportedAt?_survey (p : Plant) (hs : List Handle) (j : PointId) :
    (p.survey cause now hs).2.reportedAt? j =
      if cause = .periodic ∧ ∃ x ∈ (p.survey cause now hs).1, x.id = j then
        (p.reportedAt? j).map fun _ => clockCount now
      else p.reportedAt? j := by
  induction hs generalizing p with
  | nil => exact (if_neg fun h => nomatch h.2.choose_spec.1).symm
  | cons h rest ih =>
    cases hx : p.look? cause now h with
    | none =>
      rw [survey_cons_none rest hx]
      exact ih p
    | some x =>
      rw [survey_cons_some rest hx]
      dsimp only
      rw [ih, reportedAt?_prepared]
      simp only [List.exists_mem_cons_iff]
      by_cases hc : cause = .periodic
      · simp only [hc, true_and]
        by_cases hj : j = x.id
        · -- a mark that is made twice is the same
          simp [hj, Function.comp_def]
        · simp [hj, Ne.symm hj]
      · simp [hc]

/-- A plant **owns** entries for a station when those that resolve are points of that station at
those addresses. -/
def Owns (p : Plant) (ca : CommonAddress) (es : List (ObjectAddress × Handle)) : Prop :=
  ∀ {a h i}, (a, h) ∈ es → p.points.resolve? h = some i →
    ∃ pt, p.points.point? i = some pt ∧ pt.station = ca ∧ pt.address = a

/-- An orderly plant owns what its stations list. -/
theorem Orderly.owns (ho : p.Orderly) {id : StationId} (hid : p.find? ca = some id) :
    p.Owns ca (p.station id).points.entries :=
  fun hmem hi => ho hid ((Table.mem_iff_find? ..).mp hmem) hi

/-- A station owns its entries as before. -/
theorem Tends.owns (hpq : p.Tends written q) (ho : p.Owns ca es) : q.Owns ca es := by
  intro a h i hmem hi
  obtain ⟨b, hb, hst, haddr⟩ := ho hmem (hpq.resolve? hi)
  obtain ⟨c, hc, hbc, -, -⟩ := hpq.point hb
  exact ⟨c, hc, hbc.station.trans hst, hbc.address.trans haddr⟩

namespace Owns

/-- Points at different addresses are different points. -/
theorem id_ne {e : ObjectAddress × Handle} {rest : List (ObjectAddress × Handle)} {j : PointId}
    (ho : p.Owns ca (e :: rest)) (hfirst : ∀ f ∈ rest, rank e.1 < rank f.1)
    (hi : p.points.resolve? e.2 = some i) (hmem : (a, h) ∈ rest)
    (hj : p.points.resolve? h = some j) : j ≠ i := by
  obtain ⟨b, hb, -, rfl⟩ := ho (List.mem_cons_of_mem e hmem) hj
  obtain ⟨c, hc, -, hcaddr⟩ := ho (List.mem_cons_self : (e.1, e.2) ∈ e :: rest) hi
  rintro rfl
  obtain rfl := Option.some.inj (hb.symm.trans hc)
  have hlt := hfirst _ hmem
  rw [← hcaddr] at hlt
  exact Nat.lt_irrefl _ hlt

/-- What a survey of listed points finds is as it was when the survey began: the callbacks of other
points do not write to it. -/
theorem mem_survey (ho : p.Owns ca es) (hl : p.HooksLocal cause.hook)
    (hes : es.Pairwise fun e f => rank e.1 < rank f.1)
    (hx : x ∈ (p.survey cause now (es.map (·.2))).1) :
    (x.point.address, x.handle) ∈ es ∧ p.points.resolve? x.handle = some x.id ∧
      p.points.point? x.id = some x.point ∧ x.point.station = ca ∧ x.point.Eligible cause now := by
  induction es generalizing p with
  | nil => cases hx
  | cons e rest ih =>
    obtain ⟨hfirst, hrest⟩ := List.pairwise_cons.mp hes
    have hin {y : Find} (hy : (y.point.address, y.handle) ∈ rest) :
        (y.point.address, y.handle) ∈ e :: rest := List.mem_cons_of_mem e hy
    rw [List.map_cons] at hx
    cases hlook : p.look? cause now e.2 with
    -- passed over: the find is one of the rest
    | none =>
      rw [survey_cons_none _ hlook] at hx
      obtain ⟨hmem, hfacts⟩ := ih (fun hmem => ho (List.mem_cons_of_mem e hmem)) hl hrest hx
      exact ⟨hin hmem, hfacts⟩
    | some y =>
      obtain ⟨hyh, hyid, hypt, hyel⟩ := look?_eq_some_iff.mp hlook
      obtain ⟨pt, hpt, hst, haddr⟩ := ho (List.mem_cons_self : (e.1, e.2) ∈ e :: rest) hyid
      obtain rfl := Option.some.inj (hpt.symm.trans hypt)
      rw [survey_cons_some _ hlook] at hx
      rcases List.mem_cons.mp hx with rfl | hx
      · exact ⟨by rw [haddr, hyh]; exact List.mem_cons_self, hyh ▸ hyid, hypt, hst, hyel⟩
      · -- found later: preparing the first point has written to that point only
        have hprep := tends_prepared hl now y.id
        obtain ⟨hmem, hid, hxpt, hxst, hxel⟩ := ih (hprep.owns fun hmem => ho
          (List.mem_cons_of_mem e hmem)) (hprep.hooksLocal hl) hrest hx
        obtain ⟨b, hb, -, -, heq⟩ := hprep.point_before hxpt
        have hne := ho.id_ne hfirst hyid hmem (hprep.resolve? hid)
        exact ⟨hin hmem, hprep.resolve? hid, heq hne ▸ hb, hxst, hxel⟩

/-- Every point that was eligible when the survey began is found, unless it was removed
meanwhile. -/
theorem survey_complete (ho : p.Owns ca es) (hl : p.HooksLocal cause.hook)
    (hes : es.Pairwise fun e f => rank e.1 < rank f.1) (hmem : (a, h) ∈ es)
    (hi : (p.survey cause now (es.map (·.2))).2.points.resolve? h = some i) {pt : Point}
    (hpt : p.points.point? i = some pt) (hel : pt.Eligible cause now) :
    ⟨h, i, pt⟩ ∈ (p.survey cause now (es.map (·.2))).1 := by
  induction es generalizing p with
  | nil => cases hmem
  | cons e rest ih =>
    obtain ⟨hfirst, hrest⟩ := List.pairwise_cons.mp hes
    have hi' := (tends_survey hl _).resolve? hi
    have howns : p.Owns ca rest := fun hmem => ho (List.mem_cons_of_mem e hmem)
    rw [List.map_cons] at hi ⊢
    cases hlook : p.look? cause now e.2 with
    | none =>
      rw [survey_cons_none _ hlook] at hi ⊢
      rcases List.mem_cons.mp hmem with rfl | hmem
      · have hfound : p.look? cause now h = some ⟨h, i, pt⟩ :=
          look?_eq_some_iff.mpr ⟨rfl, hi', hpt, hel⟩
        cases hlook.symm.trans hfound
      · exact ih howns hl hrest hmem hi hpt
    | some y =>
      obtain ⟨hyh, hyid, hypt, hyel⟩ := look?_eq_some_iff.mp hlook
      rw [survey_cons_some _ hlook] at hi ⊢
      rcases List.mem_cons.mp hmem with rfl | hmem
      · obtain ⟨_, yid, ypt⟩ := y
        obtain rfl : _ = h := hyh
        obtain rfl := Option.some.inj (hyid.symm.trans hi')
        obtain rfl := Option.some.inj (hypt.symm.trans hpt)
        exact List.mem_cons_self
      · refine List.mem_cons_of_mem y ?_
        have hprep := tends_prepared hl now y.id
        -- the point is still as it was, for another one was prepared
        obtain ⟨c, hc, -, -, heq⟩ := hprep.point hpt
        obtain rfl := heq (Owns.id_ne ho hfirst hyid hmem hi')
        exact ih (hprep.owns howns) (hprep.hooksLocal hl) hrest hmem hi hc

/-- Points are found in the order of their addresses. -/
theorem pairwise_survey (ho : p.Owns ca es) (hl : p.HooksLocal cause.hook)
    (hes : es.Pairwise fun e f => rank e.1 < rank f.1) :
    (p.survey cause now (es.map (·.2))).1.Pairwise fun x y =>
      rank x.point.address < rank y.point.address := by
  induction es generalizing p with
  | nil => exact .nil
  | cons e rest ih =>
    obtain ⟨hfirst, hrest⟩ := List.pairwise_cons.mp hes
    have howns : p.Owns ca rest := fun hmem => ho (List.mem_cons_of_mem e hmem)
    rw [List.map_cons]
    cases hlook : p.look? cause now e.2 with
    | none =>
      rw [survey_cons_none _ hlook]
      exact ih howns hl hrest
    | some y =>
      obtain ⟨hyh, hyid, hypt, hyel⟩ := look?_eq_some_iff.mp hlook
      obtain ⟨pt, hpt, -, haddr⟩ := ho (List.mem_cons_self : (e.1, e.2) ∈ e :: rest) hyid
      obtain rfl := Option.some.inj (hpt.symm.trans hypt)
      have hprep := tends_prepared hl now y.id
      rw [survey_cons_some _ hlook]
      refine List.pairwise_cons.mpr
        -- whoever is found later is listed later, and the addresses are in order
        ⟨fun x hx => ?_, ih (hprep.owns howns) (hprep.hooksLocal hl) hrest⟩
      rw [haddr]
      exact hfirst _ (mem_survey (hprep.owns howns) (hprep.hooksLocal hl) hrest hx).1

end Owns

end Plant

end Telecontrol
