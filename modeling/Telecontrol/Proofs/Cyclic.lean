import Telecontrol.Proofs.Holdings
import Telecontrol.Proofs.Idling
import Telecontrol.Proofs.Interrogation

/-! # The cyclic reports of one point

An interrogation that asks for cyclic reports finds a point exactly when a station that it asks
lists the point and its report is due. Then the point is marked and said once, provided that it
lives until the frames are built; modest callbacks see to that, for they remove nothing.

Main statements: `Server.Delivers.found_iff`, `Server.Delivers.reportsOf_eq` and
`Server.cycles_step` (what a step does that asks for cyclic reports). -/

namespace Telecontrol

/-! ## Who attends to a point -/

namespace Plant

variable {p q : Plant} {cause : Cause} {now : Int} {ca : CommonAddress} {i : PointId} {h : Handle}

/-- Whether a station that an address asks lists a live point. -/
def attends (p : Plant) (ca : CommonAddress) (i : PointId) : Bool :=
  (p.asked ca).any fun e => (p.station e.2).points.values.any fun h => p.points.resolve? h = some i

/-- A point is attended to when a station that is asked lists a handle that resolves to it. -/
theorem attends_iff : p.attends ca i = true ↔ ∃ e ∈ p.asked ca, ∃ a h,
    p.handle? e.2 a = some h ∧ p.points.resolve? h = some i := by
  simp only [attends, List.any_eq_true, decide_eq_true_eq, Table.mem_values]
  constructor
  · rintro ⟨e, he, h, ⟨a, ha⟩, hi⟩
    exact ⟨e, he, a, h, ha, hi⟩
  · rintro ⟨e, he, a, h, ha, hi⟩
    exact ⟨e, he, h, ⟨a, ha⟩, hi⟩

/-- Whoever attends to a point does so when all stations are asked. -/
theorem attends_global (ha : p.attends ca i = true) : p.attends globalAddress i = true := by
  obtain ⟨e, he, hlisted⟩ := attends_iff.mp ha
  refine attends_iff.mpr ⟨e, ?_, hlisted⟩
  exact List.mem_filter.mpr ⟨List.mem_of_mem_filter he, by simp⟩

/-- A tour tends the plant up to the frames of each round, and from there on. -/
theorem Tour.through {es : List (CommonAddress × StationId)} {rs : List Round}
    (ht : Tour cause now p es rs q) (hl : p.HooksLocal cause.hook) {r : Round} (hr : r ∈ rs) :
    (∃ written, p.Tends written r.plant) ∧ ∃ written, r.plant.Tends written q := by
  induction ht with
  | nil => cases hr
  | @cons p q e es r' rs station survey rest ih =>
    have hround : p.Tends _ (p.survey cause now (p.station e.2).points.values).2 :=
      tends_survey hl _
    rw [survey] at hround
    have hlocal : r'.plant.HooksLocal cause.hook := hround.hooksLocal hl
    rcases List.mem_cons.mp hr with rfl | hr
    · exact ⟨⟨_, hround⟩, _, rest.tends hlocal⟩
    · obtain ⟨⟨_, hbefore⟩, hafter⟩ := ih hlocal hr
      exact ⟨⟨Set.univ, (hround.mono (Set.subset_univ _)).trans
        (hbefore.mono (Set.subset_univ _))⟩, hafter⟩

end Plant

/-! ## Items about a point -/

/-- Whether an item says something about a point. -/
def Item.isAbout (item : Item) (p : Point) : Bool :=
  item.station = p.station && item.object.address = p.address

/-- An item is about a point when it names its station and its address. -/
theorem Item.isAbout_iff {item : Item} {p : Point} :
    item.isAbout p = true ↔ item.station = p.station ∧ item.object.address = p.address := by
  simp [isAbout]

/-- What comes before an item is another one. -/
theorem Item.ne_of_before {x y : Item} (h : x.Before y) : x ≠ y := by
  rintro rfl
  rcases h with h | ⟨-, h | ⟨-, h⟩⟩
  · exact UInt16.lt_irrefl _ h
  · exact UInt8.lt_irrefl _ h
  · exact UInt32.lt_irrefl _ h

namespace Server

variable {s s' : Server} {q : Plant} {w : List Event} {ca : CommonAddress} {i : PointId} {p : Point}
  {receiver : Option ConnectionId} {rounds : List Round} {n : Nat}

/-- How often a point was reported cyclically. -/
def reportsOf (s : Server) (p : Point) : Nat := s.cyclicItems.countP (·.isAbout p)

/-- What is handed over is read off the trace. -/
theorem Carries.handed (h : s.Carries q w s') :
    s'.handed = (w.filterMap (·.sent?)).reverse ++ s.handed := by
  obtain ⟨_, new, rfl, -, rfl⟩ := h
  have hnoticed (e : Event) : (if e.isNoticed = true then e.sent? else none) = e.sent? := by
    cases e <;> rfl
  show (new ++ s.journal).filterMap _ = _
  rw [List.filterMap_append, trace, List.filterMap_filter, List.filterMap_map,
    List.filterMap_reverse, List.reverse_reverse]
  simp only [Function.comp_def, hnoticed]
  rfl

namespace Delivers

variable (hd : s.Delivers .periodic ca receiver rounds n s')
include hd

/-- What is reported is what the rounds say. -/
theorem cyclicItems_perm :
    s'.cyclicItems.Perm (rounds.flatMap (·.items) ++ s.cyclicItems) := by
  -- the calls of hooks send nothing, and every frame of a round is cyclic
  have hround (r : Round) (hr : r ∈ rounds) :
      ((r.trace .periodic receiver).filterMap (·.sent?)).flatMap (·.cyclicItems) = r.items := by
    have hcalls :
        (r.finds.flatMap (·.point.calls Cause.periodic.hook)).filterMap (·.sent?) = [] := by
      refine List.filterMap_eq_nil_iff.mpr fun e he => ?_
      obtain ⟨x, -, hx⟩ := List.mem_flatMap.mp he
      obtain ⟨_, -, rfl⟩ := List.mem_map.mp hx
      rfl
    rw [Round.trace, List.filterMap_append, hcalls, List.nil_append, List.filterMap_map,
      Round.items]
    have hsent : (fun e : Event => e.sent?) ∘ (fun f : Frame => Event.sent (f.toward receiver)) =
        fun f => some (f.toward receiver) := rfl
    rw [hsent, List.filterMap_eq_map', List.flatMap_map]
    refine List.flatMap_congr fun f hf => ?_
    rw [Sent.cyclicItems, frame?_toward]
    exact if_pos ((hd.tells r hr).reports f hf).cause
  have hsaid : ((rounds.flatMap (·.trace .periodic receiver)).filterMap (·.sent?)).flatMap
      (·.cyclicItems) = rounds.flatMap (·.items) := by
    rw [List.filterMap_flatMap, List.flatMap_assoc]
    exact List.flatMap_congr hround
  rw [cyclicItems, hd.carries.handed, List.flatMap_append, ← hsaid, cyclicItems]
  exact ((List.reverse_perm _).flatMap_right _).append_right _

/-- A point is found exactly when it is attended to and its report is due. -/
theorem found_iff (ho : s.plant.Orderly) (hl : s.plant.HooksLocal .beforeReport)
    (hreg : s'.plant.points.registry = s.plant.points.registry) (hp : s.point? i = some p) :
    (∃ r ∈ rounds, ∃ x ∈ r.finds, x.id = i) ↔
      (s.plant.attends ca i && p.isAskedFor .periodic s.now) = true := by
  rw [Bool.and_eq_true, Point.isAskedFor_iff]
  constructor
  · -- who is found was listed by a station that is asked
    rintro ⟨r, hr, x, hx, rfl⟩
    obtain ⟨⟨id, hid, hlisted, hi, hpt⟩, hel⟩ := (hd.covers r hr).sound x hx
    obtain rfl := Option.some.inj (hp.symm.trans hpt)
    have hst : r.station ∈ (s.plant.asked ca).map (·.1) :=
      hd.tour.stations ▸ List.mem_map_of_mem hr
    obtain ⟨e, he, heq⟩ := List.mem_map.mp hst
    have hfind := Plant.find?_of_mem_asked he
    obtain rfl := Option.some.inj ((heq ▸ hfind).symm.trans hid)
    exact ⟨Plant.attends_iff.mpr ⟨e, he, _, _, hlisted, hi⟩, hel⟩
  · -- who is attended to is found in the round of the station, unless the point is gone by then
    rintro ⟨hattends, hel⟩
    obtain ⟨e, he, a, h, hlisted, hi⟩ := Plant.attends_iff.mp hattends
    have hfind := Plant.find?_of_mem_asked he
    obtain ⟨pt, hpt, -, rfl⟩ := ho hfind hlisted hi
    obtain rfl := Option.some.inj (hp.symm.trans hpt)
    have hst : e.1 ∈ rounds.map (·.station) := hd.tour.stations ▸ List.mem_map_of_mem he
    obtain ⟨r, hr, heq⟩ := List.mem_map.mp hst
    have hlives : s'.plant.points.resolve? h = some i := by
      rw [PointStore.resolve?, hreg]
      exact hi
    obtain ⟨-, _, hafter⟩ := hd.tour.through hl hr
    exact ⟨r, hr, ⟨h, i, p⟩, (hd.covers r hr).complete _ ⟨e.2, heq ▸ hfind, hlisted, hi, hp⟩ hel
      (hafter.resolve? hlives), rfl⟩

/-- Whatever is said about a listed point is said because it was found. -/
theorem found_of_isAbout (ho : s.plant.Orderly) (hl : s.plant.HooksLocal .beforeReport)
    (hp : s.point? i = some p) (hlisted : s.plant.attends globalAddress i = true) {item : Item}
    {r : Round} (hr : r ∈ rounds) (hitem : item ∈ r.items) (habout : item.isAbout p = true) :
    r.station = p.station ∧ ∃ x ∈ r.finds, x.id = i ∧ ∃ pt, r.plant.points.point? i = some pt ∧
      item = pt.item s.now := by
  obtain ⟨hst, haddr⟩ := Item.isAbout_iff.mp habout
  have hround := (hd.tells r hr).station_of_mem hitem
  obtain ⟨x, hx, pt, -, hpt, rfl⟩ := ((hd.tells r hr).mem_items item).mp hitem
  obtain ⟨⟨id, hid, hentry, hi, hxpt⟩, -⟩ := (hd.covers r hr).sound x hx
  -- the point that is found has the place of the listed one
  obtain ⟨⟨_, hbefore⟩, -⟩ := hd.tour.through hl hr
  obtain ⟨pt', hpt', hsame, -⟩ := hbefore.point hxpt
  obtain rfl := Option.some.inj (hpt.symm.trans hpt')
  obtain ⟨e, he, a, h, hentry', hi'⟩ := Plant.attends_iff.mp hlisted
  have hfind := Plant.find?_of_mem_asked he
  obtain ⟨p', hp', hpst, hpaddr⟩ := ho hfind hentry' hi'
  obtain rfl := Option.some.inj (hp.symm.trans hp')
  have hplace : r.station = e.1 := hround.symm.trans (hst.trans hpst)
  obtain rfl := Option.some.inj ((hplace ▸ hfind).symm.trans hid)
  have hxaddr : x.point.address = a := hsame.address.symm.trans (haddr.trans hpaddr)
  obtain rfl := Option.some.inj ((hxaddr ▸ hentry).symm.trans hentry')
  obtain rfl := Option.some.inj (hi.symm.trans hi')
  exact ⟨hround.symm.trans hst, x, hx, rfl, pt, hpt, rfl⟩

/-- Rounds at the same station are the same. -/
theorem round_eq {r r' : Round} (hr : r ∈ rounds) (hr' : r' ∈ rounds)
    (hst : r.station = r'.station) : r = r' := by
  have hnodup : (rounds.map (·.station)).Nodup := by
    rw [hd.tour.stations]
    exact List.pairwise_map.mpr ((s.plant.pairwise_asked ca).imp fun hlt heq =>
      Nat.ne_of_lt hlt (congrArg Ranked.rank heq))
  exact List.inj_on_of_nodup_map hnodup hr hr' hst

/-- One item is said about a listed point that is found: what it is when the frames are built. -/
theorem exists_item (ho : s.plant.Orderly) (hl : s.plant.HooksLocal .beforeReport)
    (hreg : s'.plant.points.registry = s.plant.points.registry) (hp : s.point? i = some p)
    (hlisted : s.plant.attends globalAddress i = true)
    (hfound : ∃ r ∈ rounds, ∃ x ∈ r.finds, x.id = i) :
    ∃ item ∈ rounds.flatMap (·.items),
      ∀ other ∈ rounds.flatMap (·.items), other.isAbout p = true ↔ other = item := by
  obtain ⟨r, hr, x, hx, rfl⟩ := hfound
  have hlists := ((hd.covers r hr).sound x hx).1
  have hround := hlists.station ho
  obtain ⟨id, hid, hentry, hi, hxpt⟩ := hlists
  obtain rfl := Option.some.inj (hp.symm.trans hxpt)
  obtain ⟨⟨_, hbefore⟩, _, hafter⟩ := hd.tour.through hl hr
  obtain ⟨pt, hpt, hsame, -⟩ := hbefore.point hxpt
  have hlives : s'.plant.points.resolve? x.handle = some x.id := by
    rw [PointStore.resolve?, hreg]
    exact hi
  refine ⟨pt.item s.now, List.mem_flatMap.mpr ⟨r, hr, ((hd.tells r hr).mem_items _).mpr
    ⟨x, hx, pt, hafter.resolve? hlives, hpt, rfl⟩⟩, fun other hother => ⟨fun habout => ?_, ?_⟩⟩
  · obtain ⟨r', hr', hitem⟩ := List.mem_flatMap.mp hother
    -- only the round of its station is about the point
    obtain ⟨hst, -, -, -, pt', hpt', rfl⟩ := hd.found_of_isAbout ho hl hp hlisted hr' hitem habout
    obtain rfl := hd.round_eq hr hr' (hround.symm.trans hst.symm)
    rw [Option.some.inj (hpt.symm.trans hpt')]
  · rintro rfl
    exact Item.isAbout_iff.mpr ⟨hsame.station, hsame.address⟩

/-- A listed point is reported once if it is found, and otherwise not at all. -/
theorem reportsOf_eq (ho : s.plant.Orderly) (hl : s.plant.HooksLocal .beforeReport)
    (hreg : s'.plant.points.registry = s.plant.points.registry) (hp : s.point? i = some p)
    (hlisted : s.plant.attends globalAddress i = true) :
    s'.reportsOf p = s.reportsOf p +
      if s.plant.attends ca i && p.isAskedFor .periodic s.now then 1 else 0 := by
  rw [reportsOf, hd.cyclicItems_perm.countP_eq, List.countP_append, Nat.add_comm,
    ← reportsOf, Nat.add_left_cancel_iff]
  by_cases hfound : ∃ r ∈ rounds, ∃ x ∈ r.finds, x.id = i
  · rw [if_pos ((hd.found_iff ho hl hreg hp).mp hfound)]
    obtain ⟨item, hmem, honly⟩ := hd.exists_item ho hl hreg hp hlisted hfound
    have hcount : (rounds.flatMap (·.items)).countP (·.isAbout p) =
        (rounds.flatMap (·.items)).count item :=
      List.countP_congr fun other hother => by rw [honly other hother, beq_iff_eq]
    rw [hcount]
    exact List.count_eq_one_of_mem (hd.ordered.imp Item.ne_of_before) hmem
  · rw [if_neg fun hdue => hfound ((hd.found_iff ho hl hreg hp).mpr hdue)]
    refine List.countP_eq_zero.mpr fun item hitem habout => hfound ?_
    obtain ⟨r, hr, hitem⟩ := List.mem_flatMap.mp hitem
    obtain ⟨-, x, hx, hxi, -⟩ := hd.found_of_isAbout ho hl hp hlisted hr hitem habout
    exact ⟨r, hr, x, hx, hxi⟩

/-- A point is marked if it is found, and otherwise not. -/
theorem reportedAt?_eq (ho : s.plant.Orderly) (hl : s.plant.HooksLocal .beforeReport)
    (hreg : s'.plant.points.registry = s.plant.points.registry) (hp : s.point? i = some p) :
    s'.plant.reportedAt? i = some
      (if s.plant.attends ca i && p.isAskedFor .periodic s.now then clockCount s.now
      else p.reportedAt) := by
  have hmark : s.plant.reportedAt? i = some p.reportedAt := congrArg (Option.map _) hp
  simp only [hd.marks, true_and, hmark, hd.found_iff ho hl hreg hp, Option.map_some]
  split <;> rfl

end Delivers

/-! ## Steps that ask for cyclic reports -/

/-- Whether a cyclic report of a point goes out when it is asked for at an address: reports can be
sent, a station that is asked lists the point, and the report is due. -/
def reportsNow (s : Server) (ca : CommonAddress) (i : PointId) : Bool :=
  s.canSend && s.plant.attends ca i && (s.point? i).any (·.isAskedFor .periodic s.now)

/-- A step **cycles** when it asks for cyclic reports at an address and does nothing else about the
time of points: those whose reports go out are marked, and among them the listed ones are reported
once. -/
structure Cycles (s : Server) (ca : CommonAddress) (s' : Server) : Prop where
  modest : s.Modest → s'.Modest
  timer : ∀ i, s'.plant.timerAt? i = s.plant.timerAt? i
  timings : s'.timings = s.timings
  mark : ∀ {i p}, s.point? i = some p → s'.plant.reportedAt? i = some
    (if s.reportsNow ca i then clockCount s.now else p.reportedAt)
  reports : ∀ {i p}, s.point? i = some p → s.plant.attends globalAddress i = true →
    s'.reportsOf p = s.reportsOf p + if s.reportsNow ca i then 1 else 0

/-- While no reports can be sent, nothing happens. -/
theorem cycles_refl (hsend : s.canSend = false) : s.Cycles ca s := by
  have hnow (i : PointId) : s.reportsNow ca i = false := by
    rw [reportsNow, hsend, Bool.false_and, Bool.false_and]
  refine ⟨id, fun _ => rfl, rfl, fun hp => ?_, fun _ _ => ?_⟩
  · rw [hnow]
    exact congrArg (Option.map _) hp
  · rw [hnow]
    rfl

/-- What an interrogation delivers that asks for cyclic reports. -/
theorem Delivers.cycles (hd : s.Delivers .periodic ca receiver rounds n s') (ho : s.plant.Orderly)
    (hsend : s.canSend = true) (hmodest : s.Modest) (hb : s.Bides true s') : s.Cycles ca s' := by
  have hl : s.plant.HooksLocal .beforeReport := hmodest.hooksLocal _
  have hnow {i : PointId} {p : Point} (hp : s.point? i = some p) : s.reportsNow ca i =
      (s.plant.attends ca i && p.isAskedFor .periodic s.now) := by
    rw [reportsNow, hsend, Bool.true_and, hp, Option.any_some]
  refine ⟨hb.modest, hb.timer, hb.timings, fun hp => ?_, fun hp hlisted => ?_⟩
  · rw [hnow hp]
    exact hd.reportedAt?_eq ho hl hb.registry hp
  · rw [hnow hp]
    exact hd.reportsOf_eq ho hl hb.registry hp hlisted

/-- Asking for cyclic reports cycles. -/
theorem exists_cycles (hmodest : s.Modest) (ho : s.plant.Orderly) (ca : CommonAddress)
    (receiver : Option ConnectionId) :
    ∃ n s', interrogate onFrame .periodic ca receiver s = .ok n s' ∧ s.Cycles ca s' := by
  cases hsend : s.canSend with
  | false =>
    refine ⟨0, s, ?_, cycles_refl hsend⟩
    rw [interrogate, Act.get_bind, hsend]
    rfl
  | true =>
    obtain ⟨rounds, n, s', hok, hd⟩ :=
      exists_delivers onFrame ho hsend (hmodest.hooksLocal _) ca receiver
    have hbides : (interrogate onFrame .periodic ca receiver).Bides true s := by
      refine bides_interrogate (fun hfalse => ?_) ca
      cases hfalse
    have hb := hbides hmodest
    rw [Act.after_ok hok] at hb
    exact ⟨n, s', hok, hd.cycles ho hsend hmodest hb⟩

/-- The inventory cycles at all stations. -/
theorem exists_cycles_inventory (hmodest : s.Modest) (ho : s.plant.Orderly) :
    ∃ s', inventory onFrame s = .ok ⟨⟩ s' ∧ s.Cycles globalAddress s' := by
  rw [inventory, Act.get_bind]
  split
  · obtain ⟨n, s', hok, hc⟩ := exists_cycles hmodest ho globalAddress none
    exact ⟨s', Act.bind_ok hok, hc⟩
  · rename_i hnone
    refine ⟨s, rfl, cycles_refl ?_⟩
    rw [canSend, decide_eq_false hnone, Bool.and_false]

/-- A step that asks for cyclic reports cycles. -/
theorem cycles_step {inp : Input} (hs : s.WellFormed) (hmodest : s.Modest) (ho : s.plant.Orderly)
    (hasks : inp.asks? s = some ca) : s.Cycles ca (s.step inp) := by
  cases inp with
  | work =>
    obtain ⟨hjob, hca⟩ := (Option.ite_none_right_eq_some ..).mp hasks
    obtain rfl := Option.some.inj hca
    -- the duty of the inventory asks all stations
    obtain ⟨executor, journal, hstep, hb, -⟩ := exists_step_duty hs hjob
    have hmodest' := hb.modest hmodest
    obtain ⟨s', hok, hc⟩ := exists_cycles_inventory hmodest' ho
    have hok' : doJob onFrame (.duty .inventory) { s with executor, journal } = .ok ⟨⟩ s' := hok
    rw [hstep, guard, hok']
    exact ⟨fun _ => hc.modest hmodest', hc.timer, hc.timings.trans hb.timings, hc.mark,
      fun hp hlisted => (hc.reports hp hlisted).trans
        (congrArg (· + _) (congrArg (List.countP _) (hb.reports rfl)))⟩
  | interrogate cause station receiver =>
    cases cause with
    | periodic =>
      obtain rfl := Option.some.inj hasks
      obtain ⟨n, s', hok, hc⟩ := exists_cycles hmodest ho station receiver
      have hdiscard : discard (interrogate onFrame .periodic station receiver) s = .ok ⟨⟩ s' :=
        Act.bind_ok hok
      have hstep : s.step (.interrogate .periodic station receiver) = s' := by
        show s.outside (discard (interrogate onFrame .periodic station receiver)) = s'
        rw [outside, hdiscard]
      rwa [hstep]
    | _ => cases hasks
  | _ => cases hasks

end Server

end Telecontrol
