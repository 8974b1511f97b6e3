import Telecontrol.Proofs.Estate

/-! # Entries that dangle

A station answers questions about its points in two ways. Whether it has a point at an address, how
many points it has, and whether another point may be added at an address, it reads off its own list.
A point itself, and the listing of all points, it takes from the registry. The two views part where
an entry **dangles**: its handle is listed and resolves to nothing.

An entry dangles exactly when its point was **left behind**: given up behind the station's back
while it was listed, and the entry not struck since.

Main statements: `Plant.not_agrees_iff` (one address), `Plant.size_eq_iff` (the number of points),
`Plant.addPoint_eq_pointExists_iff` (a point that is refused), `Estate.Orderly.dangles_request` and
`Estate.Orderly.dangles_run` (where entries that dangle come from), and `Estate.views_part`. -/

namespace Telecontrol

open Plant (Request)
open Registry (vacated)

namespace Plant

variable {p : Plant} {id : StationId} {a : ObjectAddress}

/-- An entry of a station **dangles** when its handle resolves to nothing. -/
def Dangles (p : Plant) (id : StationId) (a : ObjectAddress) : Prop :=
  ∃ h, p.handle? id a = some h ∧ p.points.resolve? h = none

/-- A station **has** a live point at an address. -/
def HasLive (p : Plant) (id : StationId) (a : ObjectAddress) : Prop := ∃ i, p.pointId? id a = some i

/-- A station lists an address exactly when it has a handle for it. -/
theorem lists_iff : (p.station id).lists a = true ↔ ∃ h, p.handle? id a = some h :=
  Option.isSome_iff_exists

/-- What a station lists at an address is a live point or dangles. -/
theorem lists_iff_hasLive_or_dangles :
    (p.station id).lists a = true ↔ p.HasLive id a ∨ p.Dangles id a := by
  simp only [lists_iff, HasLive, Dangles, pointId?, Option.bind_eq_some_iff]
  constructor
  · rintro ⟨h, hh⟩
    cases hi : p.points.resolve? h with
    | none => exact .inr ⟨h, hh, hi⟩
    | some i => exact .inl ⟨i, h, hh, hi⟩
  · rintro (⟨i, h, hh, -⟩ | ⟨h, hh, -⟩) <;> exact ⟨h, hh⟩

/-- Where an entry dangles there is no live point. -/
theorem Dangles.not_hasLive (hd : p.Dangles id a) : ¬ p.HasLive id a := by
  obtain ⟨h, hh, hnone⟩ := hd
  rintro ⟨i, hi⟩
  rw [pointId?, hh, Option.bind_some, hnone] at hi
  cases hi

/-- The two views of an address agree exactly when its entry does not dangle. -/
theorem agrees_iff :
    ((p.station id).lists a = true ↔ p.HasLive id a) ↔ ¬ p.Dangles id a := by
  rw [lists_iff_hasLive_or_dangles, or_iff_left_iff_imp]
  exact ⟨fun h hd => hd.not_hasLive (h hd), fun h hd => absurd hd h⟩

/-! ## The number of points -/

/-- The entries of a station whose handle leads to no point. -/
def lost (p : Plant) (id : StationId) : List (ObjectAddress × Handle) :=
  (p.station id).points.entries.filter fun entry => (p.points.get? entry.2).isNone

/-- A station counts its live points and what it has lost. -/
theorem size_eq_add_lost (p : Plant) (id : StationId) :
    (p.station id).size = (p.livePoints id).length + (p.lost id).length := by
  rw [Station.size, Table.size, livePoints, Table.values, lost]
  induction (p.station id).points.entries with
  | nil => rfl
  | cons entry entries ih =>
    rw [List.map_cons, List.filterMap_cons, List.filter_cons]
    cases p.points.get? entry.2 with
    | none =>
      simp only [Option.isNone_none, if_true, List.length_cons]
      omega
    | some pt =>
      simp only [Option.isNone_some, Bool.false_eq_true, if_false, List.length_cons]
      omega

/-! ## Points that are refused -/

/-- An admissible point is refused exactly at an address that is listed. -/
theorem addPoint_eq_pointExists_iff {now : Int} {spec : PointSpec} (hspec : spec.Admissible) :
    p.addPoint id now spec = .error (.pointExists (p.station id).address spec.address) ↔
      p.HasLive id spec.address ∨ p.Dangles id spec.address := by
  rw [← lists_iff_hasLive_or_dangles, addPoint, (PointSpec.fault?_eq_none_iff spec).mpr hspec]
  by_cases hl : (p.station id).lists spec.address = true <;> simp [hl]

end Plant

namespace Estate

variable {e : Estate} {r : Request} {rs : List Request} {id : StationId} {a : ObjectAddress}

/-- A handle that a station lists leads to no point exactly when the entry dangles. -/
theorem Orderly.lost_eq_nil_iff (ho : e.Orderly) :
    e.plant.lost id = [] ↔ ∀ a, ¬ e.plant.Dangles id a := by
  have hentry (a : ObjectAddress) (h : Handle) :
      (a, h) ∈ (e.plant.station id).points.entries ↔ e.plant.handle? id a = some h :=
    Table.mem_iff_find? _ _ _
  have hnone {a : ObjectAddress} {h : Handle} (hh : e.plant.handle? id a = some h) :
      e.plant.points.get? h = none ↔ e.plant.points.resolve? h = none := by
    rw [PointStore.get?]
    cases hi : e.plant.points.resolve? h with
    | none => simp
    | some i =>
      -- the number of a live point that is listed is that of a point that was made
      obtain ⟨pt, hpt, -⟩ := ho.own hh hi
      simp [hpt]
  rw [Plant.lost, List.filter_eq_nil_iff]
  constructor
  · rintro hall a ⟨h, hh, hd⟩
    exact hall (a, h) ((hentry a h).mpr hh) (Option.isNone_iff_eq_none.mpr ((hnone hh).mpr hd))
  · rintro hall ⟨a, h⟩ hmem hd
    have hh := (hentry a h).mp hmem
    exact hall a ⟨h, hh, (hnone hh).mp (Option.isNone_iff_eq_none.mp hd)⟩

/-- A station counts as many points as it shows exactly when none of its entries dangles. -/
theorem Orderly.size_eq_length_iff (ho : e.Orderly) :
    (e.plant.station id).size = (e.plant.livePoints id).length ↔ ∀ a, ¬ e.plant.Dangles id a := by
  rw [Plant.size_eq_add_lost, Nat.add_eq_left, List.length_eq_zero_iff, ho.lost_eq_nil_iff]

/-! ## Where entries that dangle come from -/

/-- A request that adds something strikes nothing, and gives up nothing behind a station's back. -/
theorem not_strikes_of_isAddition (hadds : r.IsAddition) :
    ¬ e.plant.Strikes id a r ∧ ∀ h, r ≠ .vacate h := by
  cases r with
  | addStation | addPoint => exact ⟨fun h => h, fun h => nofun⟩
  | _ => exact hadds.elim

/-- A point that is added leaves the entries that dangle as they are. -/
theorem Orderly.dangles_addPoint {now : Int} {spec : PointSpec} {q : Plant} {new : StationId}
    {h' : Handle} {deals : List (Registry.Deal PointId)} (ho : e.Orderly)
    (hheld : e.plant.isHeld new = true) (ha : e.plant.addPoint new now spec = .ok (q, h'))
    (hfit : q.points.registry.Fits) (ho' : (Estate.mk q deals).Orderly) :
    q.Dangles id a ↔ e.plant.Dangles id a := by
  have hresolve := resolve?_addPoint ho.kept.sound ha hfit
  have hfree := ((Plant.addPoint_eq_ok_iff ..).mp ha).2.1
  have hnew : q.handle? new spec.address = some h' := by
    obtain ⟨-, rfl⟩ := registry_addPoint ha
    obtain rfl := Plant.eq_enlist ha
    exact handle?_enlist_self (ho.made hheld)
  constructor
  · rintro ⟨h, hh, hnone⟩
    rw [hresolve] at hnone
    split at hnone
    · cases hnone
    · rename_i hne
      obtain ⟨-, rfl⟩ := registry_addPoint ha
      obtain rfl := Plant.eq_enlist ha
      rcases Plant.handle?_enlist hh with hh | ⟨-, -, heq⟩
      · exact ⟨h, hh, hnone⟩
      · exact absurd heq hne
  · rintro ⟨h, hh, hnone⟩
    refine ⟨h, Plant.handle?_addPoint ha hh, ?_⟩
    rw [hresolve, if_neg, hnone]
    -- the new handle is listed for the new point, and nowhere else
    rintro rfl
    obtain ⟨rfl, rfl⟩ := ho'.once (Plant.handle?_addPoint ha hh) hnew
    rw [Plant.lists_iff.mpr ⟨h, hh⟩] at hfree
    cases hfree

/-- An entry dangles after a request if it is not struck, and dangled before or is given up behind
the station's back. -/
theorem Orderly.dangles_request (ho : e.Orderly) (hr : r.Possible e.plant)
    (hfit : (e.request r).plant.points.registry.Fits) (ho' : (e.request r).Orderly) :
    (e.request r).plant.Dangles id a ↔ ¬ e.plant.Strikes id a r ∧
      (e.plant.Dangles id a ∨ ∃ h, r = .vacate h ∧ e.plant.handle? id a = some h) := by
  by_cases hadds : r.IsAddition
  · have hquiet : ¬ e.plant.Strikes id a r ∧ ∀ h, r ≠ .vacate h := not_strikes_of_isAddition hadds
    obtain ⟨hspares, hvacate⟩ := hquiet
    have hnot : ¬ ∃ h, r = .vacate h ∧ e.plant.handle? id a = some h :=
      fun ⟨h, heq, _⟩ => hvacate h heq
    rw [and_iff_right hspares, or_iff_left hnot]
    rcases request_cases hr with hnone | hsame | ⟨ca, q, new, ha, hnew⟩ |
      ⟨new, now, spec, q, h', hheld, ha, hnew⟩
    · exact absurd hadds hnone
    · rw [hsame]
    · rw [hnew]
      have hhandle := Plant.handle?_addStation ha
      obtain ⟨-, -, -, rfl⟩ := (Plant.addStation_eq_ok_iff ..).mp ha
      simp only [Plant.Dangles, hhandle]
    · rw [hnew] at hfit ho' ⊢
      exact ho.dangles_addPoint hheld ha hfit ho'
  · have hsheds := e.plant.sheds_request hr hadds
    have hresolve (h : Handle) : (e.request r).plant.points.resolve? h = none ↔
        e.plant.points.resolve? h = none ∨ h ∈ e.plant.given r := by
      show (e.plant.request r).points.registry.get? h = none ↔ _
      rw [hsheds.given, Registry.get?_removeAll]
      by_cases hmem : h ∈ e.plant.given r <;> simp [hmem, PointStore.resolve?]
    constructor
    · rintro ⟨h, hh, hnone⟩
      obtain ⟨hlisted, hspares⟩ := hsheds.handle?_iff.mp hh
      refine ⟨hspares, ?_⟩
      rcases (hresolve h).mp hnone with hnone | hgiven
      · exact .inl ⟨h, hlisted, hnone⟩
      · right
        by_cases hvacate : ∃ h', r = .vacate h'
        · obtain ⟨h', rfl⟩ := hvacate
          obtain rfl := List.mem_singleton.mp hgiven
          exact ⟨h, rfl, hlisted⟩
        · -- a handle that was given up was listed where an entry was struck
          obtain ⟨id', a', hstruck, hh'⟩ :=
            (e.plant.mem_given_iff fun h' heq => hvacate ⟨h', heq⟩).mp hgiven
          obtain ⟨rfl, rfl⟩ := ho.once hlisted hh'
          exact absurd hstruck hspares
    · rintro ⟨hspares, ⟨h, hh, hnone⟩ | ⟨h, rfl, hh⟩⟩
      · exact ⟨h, hsheds.handle?_iff.mpr ⟨hh, hspares⟩, (hresolve h).mpr (.inl hnone)⟩
      · exact ⟨h, hsheds.handle?_iff.mpr ⟨hh, hspares⟩,
          (hresolve h).mpr (.inr List.mem_cons_self)⟩

/-- None of the requests strikes an entry when it is made. -/
def Spares (id : StationId) (a : ObjectAddress) : Estate → List Request → Prop
  | _, [] => True
  | e, r :: rs => ¬ e.plant.Strikes id a r ∧ Spares id a (e.request r) rs

/-- A point was **left behind**: it was given up behind its station's back while the station listed
it, and the entry was not struck since. -/
def LeftBehind (id : StationId) (a : ObjectAddress) (e : Estate) (rs : List Request) : Prop :=
  ∃ before h since, rs = before ++ .vacate h :: since ∧
    (e.run before).plant.handle? id a = some h ∧
      Spares id a ((e.run before).request (.vacate h)) since

/-- A point was left behind by the first request, and spared by the others, or by one of the others.
-/
theorem leftBehind_cons : LeftBehind id a e (r :: rs) ↔
    (∃ h, r = .vacate h ∧ e.plant.handle? id a = some h ∧ Spares id a (e.request r) rs) ∨
      LeftBehind id a (e.request r) rs := by
  constructor
  · rintro ⟨_ | ⟨r', before⟩, h, since, heq, hh, hspares⟩
    · obtain ⟨rfl, rfl⟩ := List.cons_eq_cons.mp heq
      exact .inl ⟨h, rfl, hh, hspares⟩
    · obtain ⟨rfl, rfl⟩ := List.cons_eq_cons.mp heq
      exact .inr ⟨before, h, since, rfl, hh, hspares⟩
  · rintro (⟨h, rfl, hh, hspares⟩ | ⟨before, h, since, rfl, hh, hspares⟩)
    · exact ⟨[], h, rs, rfl, hh, hspares⟩
    · exact ⟨r :: before, h, since, rfl, hh, hspares⟩

/-- An entry dangles after requests if it dangled before and was not struck, or if its point was
left behind. -/
theorem Orderly.dangles_run (ho : e.Orderly) (hrs : e.Possible rs)
    (hfit : (e.run rs).plant.points.registry.Fits)
    (hfew : ∀ i, vacated i (e.run rs).deals < 2 ^ 32) :
    (e.run rs).plant.Dangles id a ↔
      e.plant.Dangles id a ∧ Spares id a e rs ∨ LeftBehind id a e rs := by
  induction rs generalizing e with
  | nil => simp [Spares, LeftBehind]
  | cons r rs ih =>
    have hfit' : (e.request r).plant.points.registry.Fits :=
      Nat.le_trans (slots_le_run hrs.2) hfit
    have ho' : (e.request r).Orderly := ho.request hrs.1 hfit' fun i =>
      Nat.lt_of_le_of_lt (Registry.vacated_le_of_suffix ((e.request r).deals_suffix_run rs))
        (hfew i)
    -- a point that is left behind is given up without its entry being struck
    have hvacate : (∃ h, r = .vacate h ∧ e.plant.handle? id a = some h) →
        ¬ e.plant.Strikes id a r := by
      rintro ⟨h, rfl, -⟩ hstruck
      exact hstruck
    rw [run_cons, ih ho' hrs.2 hfit hfew, ho.dangles_request hrs.1 hfit' ho', leftBehind_cons,
      Spares]
    -- an entry dangles after the first request because it did before or because of that request
    constructor
    · rintro (⟨⟨hspares, hd | ⟨h, heq, hh⟩⟩, hrest⟩ | hleft)
      · exact .inl ⟨hd, hspares, hrest⟩
      · exact .inr (.inl ⟨h, heq, hh, hrest⟩)
      · exact .inr (.inr hleft)
    · rintro (⟨hd, hspares, hrest⟩ | ⟨h, heq, hh, hrest⟩ | hleft)
      · exact .inl ⟨⟨hspares, .inl hd⟩, hrest⟩
      · exact .inl ⟨⟨hvacate ⟨h, heq, hh⟩, .inr ⟨h, heq, hh⟩⟩, hrest⟩
      · exact .inr hleft

/-- Entries dangle exactly where points were left behind. Where no point was ever given up behind
its station's back, it does not matter how often slots were vacated. -/
theorem dangles_iff_leftBehind (hrs : opened.Possible rs)
    (hfit : (opened.run rs).plant.points.registry.Fits)
    (hfew : (∀ h, .vacate h ∉ rs) ∨ ∀ i, vacated i (opened.run rs).deals < 2 ^ 32) :
    (opened.run rs).Orderly ∧
      ∀ id a, (opened.run rs).plant.Dangles id a ↔ LeftBehind id a opened rs := by
  rcases hfew with hvacate | hfew
  · obtain ⟨ho, hl⟩ := orderly_opened.run_of_lossless lossless_opened hrs hfit hvacate
    refine ⟨ho, fun id a => ⟨fun ⟨h, hh, hnone⟩ => ?_, fun ⟨before, h, since, heq, _⟩ => ?_⟩⟩
    · obtain ⟨i, hi⟩ := hl hh
      rw [hnone] at hi
      cases hi
    · exact absurd (heq ▸ List.mem_append_right _ List.mem_cons_self) (hvacate h)
  · refine ⟨orderly_opened.run hrs hfit hfew, fun id a => ?_⟩
    have hempty : ¬ opened.plant.Dangles id a := fun ⟨h, hh, _⟩ =>
      nomatch Plant.lt_of_handle? hh
    rw [orderly_opened.dangles_run hrs hfit hfew, or_iff_right fun h => hempty h.1]

/-! ## The two views -/

/-- **Where the two views of a station part.** Whatever was requested, as long as there were never
more than 2^32 slots, and none was vacated 2^32 times or no point was given up behind a station's
back: a station says that it has a point at an address exactly when there is a live one, unless a
point was left behind there; it counts as many points as it shows exactly when it left none behind;
and it refuses an admissible point as one that exists exactly where there is a live one or one was
left behind. Where points are given up by their stations only, none is left behind. -/
theorem views_part (rs : List Request) (hrs : opened.Possible rs)
    (hfit : (opened.run rs).plant.points.registry.Fits)
    (hfew : (∀ h, .vacate h ∉ rs) ∨ ∀ i, vacated i (opened.run rs).deals < 2 ^ 32) :
    (∀ id a, (((opened.run rs).plant.station id).lists a = true ↔
        (opened.run rs).plant.HasLive id a) ↔ ¬ LeftBehind id a opened rs) ∧
    (∀ id, ((opened.run rs).plant.station id).size = ((opened.run rs).plant.livePoints id).length ↔
      ∀ a, ¬ LeftBehind id a opened rs) ∧
    (∀ (id : StationId) (now : Int) (spec : PointSpec), spec.Admissible →
      ((opened.run rs).plant.addPoint id now spec =
          .error (.pointExists ((opened.run rs).plant.station id).address spec.address) ↔
        (opened.run rs).plant.HasLive id spec.address ∨ LeftBehind id spec.address opened rs)) ∧
    ((∀ h, .vacate h ∉ rs) → ∀ id a, ¬ LeftBehind id a opened rs) := by
  obtain ⟨ho, hdangles⟩ := dangles_iff_leftBehind hrs hfit hfew
  refine ⟨fun id a => ?_, fun id => ?_, fun id now spec hspec => ?_, fun hvacate id a => ?_⟩
  · rw [Plant.agrees_iff, hdangles]
  · rw [ho.size_eq_length_iff]
    simp only [hdangles]
  · rw [Plant.addPoint_eq_pointExists_iff hspec, hdangles]
  · rintro ⟨before, h, since, rfl, -⟩
    exact hvacate h (List.mem_append_right _ List.mem_cons_self)

/-- A point is added and given up behind its station's back; another station is left alone. -/
def sampleLeftBehind : List Request :=
  [.addStation 1, .addStation 2, .addPoint 0 0 samplePoint, .addPoint 1 0 samplePoint,
    .vacate ⟨0, 0⟩]

/-- The station says that it has the point, counts it and refuses another one at its address, but
shows none; the other station is not concerned, and once the entry is struck the address can be used
again. -/
theorem sample_views_part :
    ((opened.run sampleLeftBehind).plant.station 0).lists 10 = true ∧
      ¬ (opened.run sampleLeftBehind).plant.HasLive 0 10 ∧
      ((opened.run sampleLeftBehind).plant.station 0).size = 1 ∧
      (opened.run sampleLeftBehind).plant.livePoints 0 = [] ∧
      (opened.run sampleLeftBehind).plant.addPoint 0 0 samplePoint =
        .error (.pointExists 1 10) ∧
      (opened.run sampleLeftBehind).plant.HasLive 1 10 ∧
      (opened.run (sampleLeftBehind ++
        [.removePoint 0 10, .addPoint 0 0 samplePoint])).plant.HasLive 0 10 := by
  have hlists : ((opened.run sampleLeftBehind).plant.station 0).lists 10 = true := by decide
  have hleft : LeftBehind 0 10 opened sampleLeftBehind :=
    ⟨sampleLeftBehind.dropLast, ⟨0, 0⟩, [], rfl, by decide, trivial⟩
  obtain ⟨hagree, -, hrefuse, -⟩ := views_part sampleLeftBehind (by decide) (by decide)
    (.inr fun i => Nat.lt_of_le_of_lt List.countP_le_length (by decide))
  have hspec : samplePoint.Admissible := (PointSpec.fault?_eq_none_iff _).mp (by decide)
  refine ⟨hlists, fun hlive => ?_, by decide, by decide, ?_, ⟨1, by decide⟩, ⟨2, by decide⟩⟩
  · exact (hagree 0 10).mp ⟨fun _ => hlive, fun _ => hlists⟩ hleft
  · exact (hrefuse 0 0 samplePoint hspec).mpr (.inr hleft)

end Estate

end Telecontrol
