import Telecontrol.Proofs.Delivery

/-! # Interrogations deliver exactly the eligible points

An interrogation is a **tour** of the stations that its address asks, one round for each. Since the
callbacks write to their own points only, a round finds the points of its station as they were when
the interrogation began, whatever happened in the rounds before. So an interrogation delivers
exactly the points that are eligible and live long enough, each once, in the order of stations,
types and addresses.

Main statements: `Plant.Tour.covers` (what the rounds of a tour find) and
`Server.interrogation_delivers`. -/

namespace Telecontrol

open Ranked (rank)

/-! ## The stations that are asked -/

/-- What a key is looked up to, read off the list of entries. -/
theorem Table.map_filter_eq_lookup {κ α : Type} [Ranked κ] [DecidableEq κ] (k : κ)
    {l : List (κ × α)} (hl : l.Pairwise fun a b => rank a.1 < rank b.1) :
    (l.filter fun e => e.1 = k).map (·.2) = (lookup k l).toList := by
  induction l with
  | nil => rfl
  | cons e rest ih =>
    obtain ⟨hfirst, hrest⟩ := List.pairwise_cons.mp hl
    rw [lookup, List.filter_cons]
    by_cases hk : e.1 = k
    · -- no later entry has the key
      have hnone : rest.filter (fun f => f.1 = k) = [] := by
        refine List.filter_eq_nil_iff.mpr fun f hf hkf => ?_
        have hlt := hfirst f hf
        rw [hk, of_decide_eq_true hkf] at hlt
        exact Nat.lt_irrefl _ hlt
      simp [hk, hnone]
    · rw [if_neg (by simpa using hk), if_neg (rank_ne.mpr (Ne.symm hk))]
      exact ih hrest

namespace Plant

/-- The stations that an address asks: all of them if it is the global one. -/
def asked (p : Plant) (address : CommonAddress) : List (CommonAddress × StationId) :=
  p.roster.entries.filter fun e => address = globalAddress ∨ e.1 = address

/-- An address asks the stations that it addresses. -/
theorem addressed_eq (p : Plant) (address : CommonAddress) :
    p.addressed address = (p.asked address).map (·.2) := by
  rw [addressed, asked]
  split
  · rename_i hglobal
    simp only [hglobal, true_or, decide_true, List.filter_true]
    rfl
  · rename_i hglobal
    simp only [hglobal, false_or]
    exact (Table.map_filter_eq_lookup address p.roster.ascending).symm

/-- The stations that are asked come in the order of their addresses. -/
theorem pairwise_asked (p : Plant) (address : CommonAddress) :
    (p.asked address).Pairwise fun e f => rank e.1 < rank f.1 := p.roster.ascending.filter _

/-- A station that is asked is on the roster. -/
theorem find?_of_mem_asked {p : Plant} {address : CommonAddress} {e : CommonAddress × StationId}
    (he : e ∈ p.asked address) : p.find? e.1 = some e.2 :=
  (Table.mem_iff_find? ..).mp (List.mem_of_mem_filter he)

/-! ## Tours -/

/-- A **tour**: the rounds at some stations, each beginning with the plant that the one before left
behind. A round looks at the points that its station lists when it begins. -/
inductive Tour (cause : Cause) (now : Int) :
    Plant → List (CommonAddress × StationId) → List Round → Plant → Prop
  | nil (p : Plant) : Tour cause now p [] [] p
  | cons {p q : Plant} {e : CommonAddress × StationId} {es : List (CommonAddress × StationId)}
      {r : Round} {rs : List Round} (station : r.station = e.1)
      (survey : p.survey cause now (p.station e.2).points.values = (r.finds, r.plant))
      (rest : Tour cause now r.plant es rs q) : Tour cause now p (e :: es) (r :: rs) q

/-- A point is **listed** when the station that answers to an address lists it and it lives. -/
def Lists (p : Plant) (station : CommonAddress) (x : Find) : Prop :=
  ∃ id, p.find? station = some id ∧ p.handle? id x.point.address = some x.handle ∧
    p.points.resolve? x.handle = some x.id ∧ p.points.point? x.id = some x.point

end Plant

/-- A round **covers** its station when it finds points that the station listed when the
interrogation began, as they were then and eligible, each once; and it finds all of those that still
live when the frames are built. -/
structure Round.Covers (r : Round) (cause : Cause) (now : Int) (p : Plant) : Prop where
  sound : ∀ x ∈ r.finds, p.Lists r.station x ∧ x.point.Eligible cause now
  complete : ∀ x, p.Lists r.station x → x.point.Eligible cause now →
    r.plant.points.resolve? x.handle = some x.id → x ∈ r.finds
  once : r.finds.Pairwise fun x y => x.point.address < y.point.address

namespace Plant

variable {p p₀ q : Plant} {cause : Cause} {now : Int} {es : List (CommonAddress × StationId)}
  {rs : List Round} {written : Set PointId}

/-- The points that are found in some rounds. -/
def found (rs : List Round) : Set PointId := {i | ∃ r ∈ rs, ∃ x ∈ r.finds, x.id = i}

/-- What rounds find is found by the first or by the others. -/
theorem found_cons (r : Round) (rs : List Round) :
    found (r :: rs) = {i | ∃ x ∈ r.finds, x.id = i} ∪ found rs := by
  ext i
  exact List.exists_mem_cons_iff ..

/-- The rounds of a tour are those of the stations that are asked. -/
theorem Tour.stations (ht : Tour cause now p es rs q) :
    rs.map (·.station) = es.map (·.1) := by
  induction ht with
  | nil => rfl
  | cons station _ _ ih => rw [List.map_cons, List.map_cons, station, ih]

/-- A tour writes to the points that are found. -/
theorem Tour.tends (ht : Tour cause now p es rs q) (hl : p.HooksLocal cause.hook) :
    p.Tends (found rs) q := by
  induction ht with
  | nil p => exact .refl p
  | @cons p q e es r rs station survey rest ih =>
    have hround : p.Tends _ (p.survey cause now (p.station e.2).points.values).2 :=
      tends_survey hl _
    rw [survey] at hround
    rw [found_cons]
    exact (hround.mono Set.subset_union_left).trans
      ((ih (hround.hooksLocal hl)).mono Set.subset_union_right)

/-- A cyclic tour marks exactly the points that it finds; no other tour marks any. -/
theorem Tour.reportedAt?_eq (ht : Tour cause now p es rs q) (i : PointId) :
    q.reportedAt? i =
      if cause = .periodic ∧ ∃ r ∈ rs, ∃ x ∈ r.finds, x.id = i then
        (p.reportedAt? i).map fun _ => clockCount now
      else p.reportedAt? i := by
  induction ht with
  | nil => exact (if_neg fun h => nomatch h.2.choose_spec.1).symm
  | @cons p q e es r rs station survey rest ih =>
    have hround : (p.survey cause now (p.station e.2).points.values).2.reportedAt? i = _ :=
      p.reportedAt?_survey _ i
    rw [survey] at hround
    rw [ih, hround]
    simp only [List.exists_mem_cons_iff]
    by_cases hc : cause = .periodic
    · by_cases hr : ∃ x ∈ r.finds, x.id = i
      · -- a mark that is made twice is the same
        simp [hc, hr, Function.comp_def]
      · simp [hc, hr]
    · simp [hc]

/-- What a station of an orderly plant lists is of that station. -/
theorem Lists.station {station : CommonAddress} {x : Find} (hx : p.Lists station x)
    (ho : p.Orderly) : x.point.station = station := by
  obtain ⟨_, hid, hlisted, hi, hpt⟩ := hx
  obtain ⟨pt, hpt', hst, -⟩ := ho hid hlisted hi
  obtain rfl := Option.some.inj (hpt.symm.trans hpt')
  exact hst

/-- A round covers its station if none of its points was written since the interrogation began. -/
theorem Tends.covers {r : Round} {id : StationId} (htends : p₀.Tends written p) (ho : p₀.Orderly)
    (hl : p₀.HooksLocal cause.hook) (hid : p₀.find? r.station = some id)
    (hwritten : ∀ i ∈ written, ∀ a, p₀.points.point? i = some a → a.station ≠ r.station)
    (survey : p.survey cause now (p.station id).points.values = (r.finds, r.plant)) :
    r.Covers cause now p₀ := by
  have hlocal : p.HooksLocal cause.hook := htends.hooksLocal hl
  have horderly : p.Orderly := htends.orderly ho
  have howns : p.Owns r.station (p.station id).points.entries :=
    Orderly.owns horderly ((htends.find? r.station).trans hid)
  have hasc := (p.station id).points.ascending
  have hround : p.Tends _ (p.survey cause now (p.station id).points.values).2 :=
    tends_survey hlocal _
  have hfound (x : Find) (hx : x ∈ (p.survey cause now (p.station id).points.values).1) :=
    Owns.mem_survey howns hlocal hasc hx
  have hcomplete (x : Find) (hmem : (x.point.address, x.handle) ∈ (p.station id).points.entries)
      (hlive : (p.survey cause now (p.station id).points.values).2.points.resolve? x.handle =
        some x.id) (hpt : p.points.point? x.id = some x.point)
      (hel : x.point.Eligible cause now) :
      x ∈ (p.survey cause now (p.station id).points.values).1 :=
    Owns.survey_complete howns hlocal hasc hmem hlive hpt hel
  have honce : (p.survey cause now (p.station id).points.values).1.Pairwise _ :=
    Owns.pairwise_survey howns hlocal hasc
  rw [survey] at hround hfound hcomplete honce
  refine ⟨fun x hx => ?_, fun x hx hel hlive => ?_, honce.imp UInt32.lt_iff_toNat_lt.mpr⟩
  · -- who is found was eligible from the beginning, since nobody has written to the station
    obtain ⟨hmem, hi, hpt, hst, hel⟩ := hfound x hx
    obtain ⟨a, ha, hsame, -, hunwritten⟩ := htends.point_before hpt
    have hlisted : p.handle? id x.point.address = some x.handle :=
      (Table.mem_iff_find? ..).mp hmem
    obtain rfl := hunwritten fun hw => hwritten x.id hw a ha (hsame.station.symm.trans hst)
    exact ⟨⟨id, hid, htends.listed hlisted, htends.resolve? hi, ha⟩, hel⟩
  · -- who was eligible is found, if still there at the end of the round
    have hst := hx.station ho
    obtain ⟨id', hid', hlisted, -, hpt⟩ := hx
    obtain rfl := Option.some.inj (hid.symm.trans hid')
    obtain ⟨b, hb, -, -, hunwritten⟩ := htends.point hpt
    obtain rfl := hunwritten fun hw => hwritten x.id hw _ hpt hst
    have hmem := htends.unlisted hlisted (hround.resolve? hlive)
    exact hcomplete x ((Table.mem_iff_find? ..).mpr hmem) hlive hb hel

/-- The rounds of a tour find the points as they were when the interrogation began: no round before
has written to the points of a station. -/
theorem Tour.covers (ht : Tour cause now p es rs q) (ho : p₀.Orderly)
    (hl : p₀.HooksLocal cause.hook) (hes : es.Pairwise fun e f => rank e.1 < rank f.1)
    (hfind : ∀ e ∈ es, p₀.find? e.1 = some e.2) (htends : p₀.Tends written p)
    (hwritten : ∀ i ∈ written, ∀ a, p₀.points.point? i = some a → ∀ e ∈ es, a.station ≠ e.1) :
    ∀ r ∈ rs, r.Covers cause now p₀ := by
  induction ht generalizing written with
  | nil => exact fun r hr => nomatch hr
  | @cons p q e es r rs station survey rest ih =>
    obtain ⟨hfirst, hrest⟩ := List.pairwise_cons.mp hes
    have hround : p.Tends _ (p.survey cause now (p.station e.2).points.values).2 :=
      tends_survey (htends.hooksLocal hl) _
    rw [survey] at hround
    have hcovers : r.Covers cause now p₀ := by
      refine htends.covers ho hl (station ▸ hfind e List.mem_cons_self) (fun i hi a ha => ?_) survey
      exact station ▸ hwritten i hi a ha e List.mem_cons_self
    refine List.forall_mem_cons.mpr ⟨hcovers, ?_⟩
    refine ih hrest (fun f hf => hfind f (List.mem_cons_of_mem e hf))
      ((htends.mono Set.subset_union_left).trans (hround.mono Set.subset_union_right)) ?_
    rintro i (hi | ⟨x, hx, rfl⟩) a ha f hf
    · exact hwritten i hi a ha f (List.mem_cons_of_mem e hf)
    · -- the points found in this round are of another station
      have hlists := (hcovers.sound x hx).1
      have hst := (hlists.station ho).trans station
      obtain ⟨-, -, -, -, hpt⟩ := hlists
      obtain rfl := Option.some.inj (ha.symm.trans hpt)
      exact fun heq => Nat.ne_of_lt (hfirst f hf) (congrArg rank (hst.symm.trans heq))

end Plant

/-! ## The order of the items -/

/-- Whatever a round says is said of its station. -/
theorem Round.Tells.station_of_mem {r : Round} {cause : Cause} {now : Int} {originator : Originator}
    (h : r.Tells cause now originator) {item : Item} (hitem : item ∈ r.items) :
    item.station = r.station := by
  obtain ⟨f, hf, hmem⟩ := List.mem_flatMap.mp hitem
  obtain ⟨o, -, rfl⟩ := List.mem_map.mp hmem
  exact (h.reports f hf).station

/-- Rounds at ascending addresses say what they say in order. -/
theorem Round.pairwise_items {rs : List Round} {cause : Cause} {now : Int}
    {originator : Originator} (htells : ∀ r ∈ rs, r.Tells cause now originator)
    (hst : (rs.map (·.station)).Pairwise fun a b => rank a < rank b) :
    (rs.flatMap (·.items)).Pairwise Item.Before := by
  rw [List.pairwise_flatMap]
  refine ⟨fun r hr => (htells r hr).ordered, ?_⟩
  refine (List.pairwise_map.mp hst).imp_of_mem fun {r r'} hr hr' hlt x hx y hy => .inl ?_
  rw [(htells r hr).station_of_mem hx, (htells r' hr').station_of_mem hy, UInt16.lt_iff_toNat_lt]
  exact hlt

/-! ## A site with measured values -/

namespace Sample

/-- The sample site with measured values at two stations. When the first value of station 1 is read,
its callback brings it up to date and removes the one after it. -/
def gauged : Server := site.run
  [.start, .addStation 2, .addStation 1,
    .addPoint 0 { address := 3, type := .M_ME_NC_1, reportInterval := 500 },
    .addPoint 1 { address := 10, type := .M_ME_NC_1 },
    .addPoint 1 { address := 11, type := .M_ME_NC_1 },
    .addPoint 1 { address := 5, type := .M_SP_NA_1 },
    .write 1 (.callback .beforeRead { actions := [.setValue ⟨1⟩, .removePoint 1 11] }),
    .connection client .activated, .pass 1000]

/-- The callbacks of the sample site stay with their points. -/
theorem hooksLocal_gauged (kind : PointCallback) : gauged.plant.HooksLocal kind := by
  have hall : ∀ a ∈ gauged.plant.points.points, ∀ kind ∈ [PointCallback.receive, .beforeRead,
      .beforeReport, .timer], ∀ callback ∈ (a.callbacks.get? kind).toList,
      ∀ x ∈ callback.actions, x.IsLocal := by
    decide
  intro i a callback ha hcallback
  refine hall a (Array.mem_of_getElem? ha) kind ?_ callback (Option.mem_toList.mpr hcallback)
  cases kind <;> decide

end Sample

/-! ## Interrogations -/

namespace Server

open Act

variable {s : Server} {cause : Cause}

/-- Interrogating stations one after the other is a tour. -/
theorem comesTo_interrogateStations (inlet : Inlet) (hl : s.plant.HooksLocal cause.hook)
    (ho : s.plant.Orderly) (hsend : s.canSend = true) {es : List (CommonAddress × StationId)}
    (hes : ∀ e ∈ es, s.plant.find? e.1 = some e.2) (receiver : Option ConnectionId) :
    ∃ rs q, s.plant.Tour cause s.now es rs q ∧
      (∀ r ∈ rs, r.Tells cause s.now (s.originatorOf receiver)) ∧
      (interrogateStations inlet cause receiver (es.map (·.2))).ComesTo s
        (rs.flatMap (·.frames)).length q (rs.flatMap (·.trace cause receiver)) := by
  induction es generalizing s with
  | nil => exact ⟨[], s.plant, .nil _, fun r hr => (nomatch hr), comesTo_pure 0⟩
  | cons e es ih =>
    have howns : s.plant.Owns e.1 (s.plant.station e.2).points.entries :=
      Plant.Orderly.owns ho (hes e List.mem_cons_self)
    obtain ⟨r, hst, hsurvey, htells, s₁, hok, hs₁⟩ :=
      comesTo_interrogateStation inlet hl howns hsend receiver
    have htends : s.plant.Tends _ (s.plant.survey cause s.now _).2 :=
      Plant.tends_survey hl (s.plant.station e.2).points.values
    -- the first round leaves the plant tended, so the other stations are found and own their points
    rw [hsurvey] at htends
    rw [← hs₁.plant] at htends
    obtain ⟨rs, q, htour, htells', s₂, hok', hs₂⟩ := ih (htends.hooksLocal hl) (htends.orderly ho)
      (hs₁.canSend.trans hsend)
      fun f hf => (htends.find? f.1).trans (hes f (List.mem_cons_of_mem e hf))
    rw [hs₁.plant, hs₁.now] at htour
    rw [hs₁.now, hs₁.originatorOf] at htells'
    refine ⟨r :: rs, q, .cons hst hsurvey htour, List.forall_mem_cons.mpr ⟨htells, htells'⟩, ?_⟩
    rw [List.flatMap_cons, List.flatMap_cons, List.length_append]
    refine ⟨s₂, ?_, hs₁.trans hs₂⟩
    rw [List.map_cons, interrogateStations, bind_ok hok, bind_ok hok']
    rfl

/-- An interrogation **delivers** what it finds: what it comes to when the answer is `n` and the
server is `s'` afterwards. -/
structure Delivers (s : Server) (cause : Cause) (station : CommonAddress)
    (receiver : Option ConnectionId) (rounds : List Round) (n : Nat) (s' : Server) : Prop where
  /-- There is a round for each station that is asked, in the order of their addresses. It finds the
  points that are eligible when it comes to them, and prepares them. -/
  tour : s.plant.Tour cause s.now (s.plant.asked station) rounds s'.plant
  /-- These points are as they were, listed and eligible, when the interrogation began; among them
  are all that still live when the frames of their station are built. -/
  covers : ∀ r ∈ rounds, r.Covers cause s.now s.plant
  /-- The frames say what those of them are that still live when they are built, and nothing
  else. -/
  tells : ∀ r ∈ rounds, r.Tells cause s.now (s.originatorOf receiver)
  /-- Everything that is said is said once, by station, type and address. -/
  ordered : (rounds.flatMap (·.items)).Pairwise Item.Before
  /-- The callback of each point that is found is called once, the frames are handed over, and
  nothing else of the server changes but the plant. -/
  carries : s.Carries s'.plant (rounds.flatMap (·.trace cause receiver)) s'
  count : n = (rounds.flatMap (·.frames)).length
  /-- No point is written but those that are found. -/
  writes : s.plant.Tends (Plant.found rounds) s'.plant
  /-- A cyclic interrogation marks exactly the points that are found. -/
  marks : ∀ i, s'.plant.reportedAt? i =
    if cause = .periodic ∧ ∃ r ∈ rounds, ∃ x ∈ r.finds, x.id = i then
      (s.plant.reportedAt? i).map fun _ => clockCount s.now
    else s.plant.reportedAt? i

/-- An interrogation comes to an end and delivers what it finds. -/
theorem exists_delivers (inlet : Inlet) (ho : s.plant.Orderly) (hsend : s.canSend = true)
    (hl : s.plant.HooksLocal cause.hook) (station : CommonAddress)
    (receiver : Option ConnectionId) :
    ∃ rounds n s', interrogate inlet cause station receiver s = .ok n s' ∧
      s.Delivers cause station receiver rounds n s' := by
  have hasc := s.plant.pairwise_asked station
  have hfind : ∀ e ∈ s.plant.asked station, s.plant.find? e.1 = some e.2 :=
    fun e he => Plant.find?_of_mem_asked he
  obtain ⟨rs, q, htour, htells, s', hok, hs'⟩ :=
    comesTo_interrogateStations inlet hl ho hsend hfind receiver
  obtain rfl := hs'.plant
  refine ⟨rs, (rs.flatMap (·.frames)).length, s', ?_, htour, ?_, htells, ?_, hs', rfl,
    htour.tends hl, htour.reportedAt?_eq⟩
  · rw [interrogate, get_bind, hsend, if_pos rfl, Plant.addressed_eq]
    exact hok
  · have hnone : s.plant.Tends ∅ s.plant := .refl _
    exact htour.covers ho hl hasc hfind hnone fun i hi => absurd hi (Set.notMem_empty i)
  · refine Round.pairwise_items htells ?_
    rw [htour.stations]
    exact List.pairwise_map.mpr hasc

/-- The cyclic reports are delivered by an interrogation of all stations for no receiver in
particular. -/
theorem exists_delivers_inventory (inlet : Inlet) (ho : s.plant.Orderly) (hsend : s.canSend = true)
    (hl : s.plant.HooksLocal .beforeReport) :
    ∃ rounds n s', inventory inlet s = .ok ⟨⟩ s' ∧
      s.Delivers .periodic globalAddress none rounds n s' := by
  obtain ⟨rs, n, s', hok, hdelivers⟩ : ∃ rounds n s',
      interrogate inlet .periodic globalAddress none s = .ok n s' ∧
        s.Delivers .periodic globalAddress none rounds n s' :=
    exists_delivers inlet ho hsend hl globalAddress none
  have hactive : 0 < s.connections.activeCount :=
    of_decide_eq_true (Bool.and_eq_true_iff.mp hsend).2
  refine ⟨rs, n, s', ?_, hdelivers⟩
  rw [inventory, get_bind, if_pos hactive]
  show EStateM.map _ _ s = _
  rw [EStateM.map, hok]

/-- **Interrogations deliver exactly the eligible points.** Take a server that can send and whose
stations own what they list, as they do in every visited state while generations do not wrap
(`Visited.orderly`). When callbacks stay with the points, whatever an interrogation asks for, each
eligible point that lives until the frames of its station are built is said once, as it is then, and
nothing else is said. The cyclic reports are the interrogation of all stations for no receiver in
particular. -/
theorem interrogation_delivers (ho : s.plant.Orderly) (hsend : s.canSend = true) :
    (∀ (inlet : Inlet) (cause : Cause) (station : CommonAddress) (receiver : Option ConnectionId),
      s.plant.HooksLocal cause.hook →
      ∃ rounds n s', interrogate inlet cause station receiver s = .ok n s' ∧
        s.Delivers cause station receiver rounds n s') ∧
    ∀ inlet : Inlet, s.plant.HooksLocal .beforeReport →
      ∃ rounds n s', inventory inlet s = .ok ⟨⟩ s' ∧
        s.Delivers .periodic globalAddress none rounds n s' :=
  ⟨fun inlet _ station receiver hl => exists_delivers inlet ho hsend hl station receiver,
    fun inlet hl => exists_delivers_inventory inlet ho hsend hl⟩

/-- A general interrogation of the sample site comes to three frames, two of station 1 and one of
station 2, and the cyclic report that is due there is delivered as well. -/
theorem sample_interrogated :
    (∃ rounds s', interrogate onFrame .interrogatedByStation globalAddress (some Sample.client)
        Sample.gauged = .ok 3 s' ∧
      Sample.gauged.Delivers .interrogatedByStation globalAddress (some Sample.client) rounds 3
        s') ∧
    ∃ rounds n s', inventory onFrame Sample.gauged = .ok ⟨⟩ s' ∧
      Sample.gauged.Delivers .periodic globalAddress none rounds n s' := by
  have horderly : Sample.gauged.plant.Orderly := (Sample.visited _).orderly (by decide)
  obtain ⟨hinterrogate, hinventory⟩ := interrogation_delivers horderly rfl
  refine ⟨?_, hinventory onFrame (Sample.hooksLocal_gauged _)⟩
  obtain ⟨rounds, n, s', hok, hdelivers⟩ := hinterrogate onFrame .interrogatedByStation
    globalAddress (some Sample.client) (Sample.hooksLocal_gauged _)
  have hcount : (match interrogate onFrame .interrogatedByStation globalAddress
      (some Sample.client) Sample.gauged with
    | .ok n _ => some n
    | .error _ _ => none) = some 3 := by decide +kernel
  rw [hok] at hcount
  obtain rfl : n = 3 := Option.some.inj hcount
  exact ⟨rounds, s', hok, hdelivers⟩

end Server

end Telecontrol
