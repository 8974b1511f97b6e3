import Telecontrol.Proofs.Estate

/-! # The identity of points

A station refuses a point at an object address that it lists, and the roster refuses a station at a
common address that has one. So points are **identified** by their two addresses as long as points
are added to stations on the roster only. But a station that was taken off the roster goes on
accepting points for whoever keeps it, and no other station is asked then. When another station has
taken its common address, the two may **clash**: both list a live point at one object address.

Main statements: `Estate.Orderly.identified_iff` (points are identified exactly when no two stations
clash), `Estate.Orderly.detached_of_clash` (one of two stations that clash is off the roster),
`Estate.rostered_run`, and `Estate.points_identified`. -/

namespace Telecontrol

open Plant (Request)

namespace Plant

variable {p q : Plant} {r : Request} {id id' : StationId} {a : ObjectAddress} {ca : CommonAddress}
  {h : Handle}

/-- Points are **identified** when no two live points have the same two addresses. -/
def Identified (p : Plant) : Prop :=
  ∀ ⦃h h' : Handle⦄ ⦃i i' : PointId⦄ ⦃pt pt' : Point⦄, p.points.resolve? h = some i →
    p.points.resolve? h' = some i' → p.points.point? i = some pt → p.points.point? i' = some pt' →
    pt.station = pt'.station → pt.address = pt'.address → i = i'

/-- Two stations of one common address **clash** when both list something at an object address. -/
structure Clash (p : Plant) (id id' : StationId) (a : ObjectAddress) : Prop where
  ne : id ≠ id'
  station : (p.station id).address = (p.station id').address
  left : (p.handle? id a).isSome = true
  right : (p.handle? id' a).isSome = true

/-- A station is **detached** when somebody keeps it, but it is off the roster. -/
def Detached (p : Plant) (id : StationId) : Prop := id ∈ p.kept ∧ ∀ ca, p.find? ca ≠ some id

/-- Only stations on the roster list anything. -/
def Rostered (p : Plant) : Prop :=
  ∀ ⦃id a h⦄, p.handle? id a = some h → p.find? (p.station id).address = some id

/-- Stations on the roster do not clash. -/
theorem Rostered.not_clash (hp : p.Rostered) : ¬ p.Clash id id' a := by
  rintro ⟨hne, hstation, hleft, hright⟩
  obtain ⟨h, hh⟩ := Option.isSome_iff_exists.mp hleft
  obtain ⟨h', hh'⟩ := Option.isSome_iff_exists.mp hright
  have hfind := hp hh
  rw [hstation, hp hh'] at hfind
  exact hne (Option.some.inj hfind).symm

/-! ## Requests on the roster -/

/-- Points are requested for stations on the roster only. -/
def Request.OnRoster (p : Plant) : Request → Prop
  | .addPoint id .. => p.find? (p.station id).address = some id
  | _ => True

instance (p : Plant) : (r : Request) → Decidable (r.OnRoster p)
  | .addPoint id .. => inferInstanceAs (Decidable (p.find? (p.station id).address = some id))
  | .addStation _ | .removeStation _ | .keep _ | .release _ | .removePoint .. | .vacate _ =>
    .isTrue trivial

/-- A request that adds nothing takes a station off the roster, or none. -/
theorem find?_request (hadds : ¬ r.IsAddition) (hfind : p.find? ca = some id)
    (hr : r ≠ .removeStation ca) : (p.request r).find? ca = some id := by
  cases r with
  | addStation | addPoint => exact absurd trivial hadds
  | keep | vacate => exact hfind
  | release id' =>
    rw [request, Plant.release, Plant.abandon]
    split <;> exact hfind
  | removePoint id' a =>
    rw [request, Plant.removePoint]
    split <;> exact hfind
  | removeStation ca' =>
    rw [request, Plant.removeStation]
    cases hf : p.find? ca' with
    | none => exact hfind
    | some id' => exact (Table.find?_erase_of_ne _ fun heq => hr (by rw [heq])).trans hfind

namespace Rostered

/-- What is taken away leaves only stations on the roster that list anything. -/
theorem shed (hp : p.Rostered) (hr : r.Possible p) (hadds : ¬ r.IsAddition) :
    (p.request r).Rostered := by
  intro id a h hh
  have hsheds := p.sheds_request hr hadds
  obtain ⟨hlisted, hkept⟩ := hsheds.handle?_iff.mp hh
  have hfind := hp hlisted
  rw [hsheds.address]
  refine find?_request hadds hfind ?_
  -- the entries of a station that is removed are struck
  rintro rfl
  exact hkept hfind

/-- A station that is added takes no other one off the roster. -/
theorem addStation {new : StationId} (hp : p.Rostered) (ha : p.addStation ca = .ok (q, new)) :
    q.Rostered := by
  intro id a h hh
  rw [handle?_addStation ha] at hh
  obtain ⟨-, hfree, rfl, rfl⟩ := (addStation_eq_ok_iff ..).mp ha
  have hfind := hp hh
  rw [station_push (lt_of_handle? hh)]
  refine (Table.find?_insert_of_ne _ _ fun heq => ?_).trans hfind
  have heq : (p.station id).address = ca := heq
  rw [Table.contains, ← find?, ← heq, hfind] at hfree
  cases hfree

/-- A point is added to a station on the roster. -/
theorem addPoint {new : StationId} {now : Int} {spec : PointSpec} (hp : p.Rostered)
    (hnew : p.find? (p.station new).address = some new)
    (ha : p.addPoint new now spec = .ok (q, h)) : q.Rostered := by
  intro id a h hh
  obtain rfl := eq_enlist ha
  have haddress : ((p.enlist new now spec).1.station id).address = (p.station id).address := by
    show ((p.modifyStation new _).station id).address = _
    rw [station_modifyStation]
    split <;> rfl
  rw [haddress]
  rcases handle?_enlist hh with hh | ⟨rfl, -, -⟩
  · exact hp hh
  · exact hnew

end Rostered

end Plant

namespace Estate

variable {e : Estate} {r : Request} {rs : List Request} {id id' : StationId} {a : ObjectAddress}

/-! ## Clashes -/

/-- Points are identified exactly when no two stations clash. -/
theorem Orderly.identified_iff (ho : e.Orderly) (hl : e.Lossless) :
    e.plant.Identified ↔ ∀ id id' a, ¬ e.plant.Clash id id' a := by
  constructor
  · rintro hp id id' a ⟨hne, hstation, hleft, hright⟩
    obtain ⟨h, hh⟩ := Option.isSome_iff_exists.mp hleft
    obtain ⟨h', hh'⟩ := Option.isSome_iff_exists.mp hright
    obtain ⟨i, hi⟩ := hl hh
    obtain ⟨i', hi'⟩ := hl hh'
    obtain ⟨pt, hpt, hst, haddr⟩ := ho.own hh hi
    obtain ⟨pt', hpt', hst', haddr'⟩ := ho.own hh' hi'
    obtain rfl : i = i' := hp hi hi' hpt hpt' ((hst.trans hstation).trans hst'.symm)
      (haddr.trans haddr'.symm)
    -- one point has one handle, and a handle is listed once
    obtain rfl := ho.single hi hi'
    exact hne (ho.once hh hh').1
  · intro hnone h h' i i' pt pt' hi hi' hpt hpt' hst haddr
    obtain ⟨id, a, hh⟩ := ho.listed hi
    obtain ⟨id', a', hh'⟩ := ho.listed hi'
    obtain ⟨_, hown, hstation, rfl⟩ := ho.own hh hi
    obtain rfl := Option.some.inj (hpt.symm.trans hown)
    obtain ⟨_, hown', hstation', rfl⟩ := ho.own hh' hi'
    obtain rfl := Option.some.inj (hpt'.symm.trans hown')
    rw [← haddr] at hh'
    have hsame : id = id' := by
      by_contra hne
      exact hnone id id' pt.address ⟨hne, (hstation.symm.trans hst).trans hstation',
        Option.isSome_iff_exists.mpr ⟨h, hh⟩, Option.isSome_iff_exists.mpr ⟨h', hh'⟩⟩
    subst hsame
    obtain rfl := Option.some.inj (hh.symm.trans hh')
    exact Option.some.inj (hi.symm.trans hi')

/-- A station that lists something is on the roster or detached. -/
theorem Orderly.find?_or_detached (ho : e.Orderly) {h : Handle}
    (hh : e.plant.handle? id a = some h) :
    e.plant.find? (e.plant.station id).address = some id ∨ e.plant.Detached id := by
  by_cases hroster : ∃ ca, e.plant.find? ca = some id
  · obtain ⟨ca, hfind⟩ := hroster
    exact .inl ((ho.rostered hfind).2.symm ▸ hfind)
  · refine .inr ⟨?_, fun ca hfind => hroster ⟨ca, hfind⟩⟩
    exact (Plant.isHeld_iff.mp (ho.held hh)).resolve_left hroster

/-- One of two stations that clash is off the roster, and somebody keeps it. -/
theorem Orderly.detached_of_clash (ho : e.Orderly) (hc : e.plant.Clash id id' a) :
    e.plant.Detached id ∨ e.plant.Detached id' := by
  obtain ⟨h, hh⟩ := Option.isSome_iff_exists.mp hc.left
  obtain ⟨h', hh'⟩ := Option.isSome_iff_exists.mp hc.right
  rcases ho.find?_or_detached hh with hfind | hdetached
  · rcases ho.find?_or_detached hh' with hfind' | hdetached'
    · rw [← hc.station, hfind] at hfind'
      exact absurd (Option.some.inj hfind') hc.ne
    · exact .inr hdetached'
  · exact .inl hdetached

/-! ## Runs on the roster -/

/-- Whether every one of the requests adds to the roster when it is made. -/
def OnRoster : Estate → List Request → Prop
  | _, [] => True
  | e, r :: rs => r.OnRoster e.plant ∧ (e.request r).OnRoster rs

instance OnRoster.decidable : (e : Estate) → (rs : List Request) → Decidable (e.OnRoster rs)
  | _, [] => .isTrue trivial
  | e, r :: rs =>
    have := OnRoster.decidable (e.request r) rs
    inferInstanceAs (Decidable (_ ∧ _))

/-- As long as points are added to stations on the roster, only these list anything. -/
theorem rostered_request (he : e.plant.Rostered) (hr : r.Possible e.plant)
    (hroster : r.OnRoster e.plant) : (e.request r).plant.Rostered := by
  cases r with
  | addStation ca =>
    cases ha : e.plant.addStation ca with
    | error _ => rwa [request_addStation_error ha]
    | ok new =>
      rw [request, Plant.request, ha]
      exact he.addStation ha
  | addPoint id now spec =>
    cases ha : e.plant.addPoint id now spec with
    | error _ => rwa [request_addPoint_error ha]
    | ok new =>
      rw [request, Plant.request, ha]
      exact he.addPoint hroster ha
  | removeStation | keep | release | removePoint | vacate => exact he.shed hr fun hadds => hadds

/-- After any requests every held station with points is on the roster. -/
theorem rostered_run (he : e.plant.Rostered) (hrs : e.Possible rs) (hroster : e.OnRoster rs) :
    (e.run rs).plant.Rostered := by
  induction rs generalizing e with
  | nil => exact he
  | cons r rs ih => exact ih (rostered_request he hrs.1 hroster.1) hrs.2 hroster.2

/-! ## Identity -/

/-- **The identity of points.** Whatever was requested, giving up no point behind its station's
back, and as long as there were never more than 2^32 slots: no two live points have the same two
addresses exactly when no two stations clash; one of two stations that clash is kept by somebody,
but off the roster; and no two points have the same two addresses as long as points were added to
stations on the roster only. -/
theorem points_identified (rs : List Request) (hrs : opened.Possible rs)
    (hvacate : ∀ h, .vacate h ∉ rs) (hfit : (opened.run rs).plant.points.registry.Fits) :
    ((opened.run rs).plant.Identified ↔ ∀ id id' a, ¬ (opened.run rs).plant.Clash id id' a) ∧
    (∀ id id' a, (opened.run rs).plant.Clash id id' a →
      (opened.run rs).plant.Detached id ∨ (opened.run rs).plant.Detached id') ∧
    (opened.OnRoster rs → (opened.run rs).plant.Identified) := by
  obtain ⟨ho, hl⟩ := orderly_opened.run_of_lossless lossless_opened hrs hfit hvacate
  refine ⟨ho.identified_iff hl, fun id id' a hc => ho.detached_of_clash hc, fun hroster => ?_⟩
  have hrostered : (opened.run rs).plant.Rostered :=
    rostered_run (fun _ _ _ hh => nomatch Plant.lt_of_handle? hh) hrs hroster
  exact (ho.identified_iff hl).mpr fun _ _ _ => hrostered.not_clash

/-- A station is removed while somebody keeps it, another one takes its common address, and both are
given a point at one object address. -/
def sampleTwins : List Request :=
  [.addStation 1, .keep 0, .removeStation 1, .addStation 1, .addPoint 1 0 samplePoint,
    .addPoint 0 0 samplePoint]

/-- Both points live, so that they are not identified; before the last one they were. -/
theorem sample_points_not_identified :
    ¬ (opened.run sampleTwins).plant.Identified ∧ (opened.run sampleTwins).plant.points.size = 2 ∧
      (opened.run sampleTwins.dropLast).plant.Identified := by
  have hvacate (h : Handle) : .vacate h ∉ sampleTwins := by simp [sampleTwins]
  have hclash : (opened.run sampleTwins).plant.Clash 0 1 10 := by
    refine ⟨?_, ?_, ?_, ?_⟩ <;> decide
  refine ⟨fun hid => ?_, by decide, ?_⟩
  · exact (points_identified sampleTwins (by decide) hvacate (by decide)).1.mp hid 0 1 10 hclash
  · exact (points_identified sampleTwins.dropLast (by decide)
      (fun h hmem => hvacate h (List.dropLast_subset _ hmem)) (by decide)).2.2 (by decide)

end Estate

end Telecontrol
