import Mathlib.Data.List.Nodup
import Telecontrol.Config.Validity

/-! # The check of configurations is exact

The check goes through a configuration once and ends at the first fault, and a configuration is
valid when there is nothing to complain about anywhere in it, in whatever order it is written. Going
on from element to element, the check remembers the addresses that it has seen; so what it finds no
fault with is distinct and differs from what was seen before.

Main statements: `StationConfig.fault?_eq_none_iff` and `ServerConfig.fault?_eq_none_iff`. -/

namespace Telecontrol

/-- Elements are new after another one was seen when they differ from it and were new before. -/
theorem forall_not_mem_cons {α κ : Type} (key : α → κ) (k : κ) (earlier : List κ) (l : List α) :
    (∀ a ∈ l, key a ∉ k :: earlier) ↔ k ∉ l.map key ∧ ∀ a ∈ l, key a ∉ earlier := by
  simp only [List.mem_cons, not_or, List.mem_map, not_exists, not_and]
  exact forall₂_and

namespace PointConfig

/-- There is no fault with a valid point at a new address. -/
theorem fault?_eq_none_iff (station : CommonAddress) (earlier : List ObjectAddress)
    (p : PointConfig) : p.fault? station earlier = none ↔ p.Valid ∧ p.address ∉ earlier := by
  rw [fault?, check_eq_none_iff, check_eq_none_iff, check_eq_none_iff, check_eq_none_iff,
    check_eq_none_iff, UInt32.not_lt, not_cyclicCommand_iff, not_unselectable_iff]
  -- each complaint that is not made is one condition of validity
  constructor
  · rintro ⟨haddress, hnew, htype, hcyclic, hmode, -⟩
    exact ⟨⟨haddress, by simpa using htype, hcyclic, hmode⟩, hnew⟩
  · rintro ⟨⟨haddress, htype, hcyclic, hmode⟩, hnew⟩
    exact ⟨haddress, hnew, by simp [htype], hcyclic, hmode, rfl⟩

end PointConfig

namespace StationConfig

/-- There is no fault with valid points at distinct new addresses. -/
theorem pointsFault?_eq_none_iff (station : CommonAddress) (earlier : List ObjectAddress)
    (ps : List PointConfig) : pointsFault? station earlier ps = none ↔
      (∀ p ∈ ps, p.Valid) ∧ (ps.map (·.address)).Nodup ∧ ∀ p ∈ ps, p.address ∉ earlier := by
  induction ps generalizing earlier with
  | nil => exact iff_of_true rfl ⟨List.forall_mem_nil _, .nil, List.forall_mem_nil _⟩
  | cons p ps ih =>
    rw [pointsFault?, List.forall_mem_cons, List.forall_mem_cons, List.map_cons, List.nodup_cons]
    cases hp : p.fault? station earlier with
    | some fault =>
      refine iff_of_false (Option.some_ne_none _) fun ⟨⟨hvalid, _⟩, _, hnew, _⟩ => ?_
      rw [(p.fault?_eq_none_iff station earlier).mpr ⟨hvalid, hnew⟩] at hp
      cases hp
    | none =>
      obtain ⟨hvalid, hnew⟩ := (p.fault?_eq_none_iff station earlier).mp hp
      show pointsFault? station (p.address :: earlier) ps = none ↔ _
      rw [ih, forall_not_mem_cons]
      tauto

/-- The point found at an address, when addresses are distinct. -/
theorem find?_eq_some_iff {s : StationConfig} (hs : (s.points.map (·.address)).Nodup)
    (address : ObjectAddress) (q : PointConfig) :
    s.find? address = some q ↔ q ∈ s.points ∧ q.address = address := by
  have hfound {q : PointConfig} (hq : s.find? address = some q) :
      q ∈ s.points ∧ q.address = address := by
    rw [find?] at hq
    exact ⟨List.mem_of_find?_eq_some hq, by simpa using List.find?_some hq⟩
  refine ⟨hfound, ?_⟩
  rintro ⟨hmem, haddress⟩
  cases hfind : s.find? address with
  | none => exact absurd (beq_iff_eq.mpr haddress) (List.find?_eq_none.mp hfind q hmem)
  | some q' =>
    obtain ⟨hmem', haddress'⟩ := hfound hfind
    rw [List.inj_on_of_nodup_map hs hmem' hmem (haddress'.trans haddress.symm)]

/-- There is no fault with the auto-return of a point when it leads to a monitoring point. -/
theorem returnFault?_eq_none_iff {s : StationConfig} (hs : (s.points.map (·.address)).Nodup)
    (p : PointConfig) : s.returnFault? p = none ↔ (p.autoReturn = true → s.Returns p) := by
  rw [returnFault?, Returns]
  split
  · rename_i hauto
    rw [forall_prop_of_true hauto]
    cases p.related with
    | none =>
      refine iff_of_false (Option.some_ne_none _) fun ⟨related, hrelated, _⟩ => ?_
      cases hrelated
    | some related =>
      simp only [Option.some.injEq, exists_eq_left']
      -- the point is looked up by its address, and no other one has it
      cases hfind : s.find? related with
      | none =>
        refine iff_of_false (Option.some_ne_none _) fun ⟨q, hq, haddress, _⟩ => ?_
        rw [(find?_eq_some_iff hs related q).mpr ⟨hq, haddress⟩] at hfind
        cases hfind
      | some q =>
        have hq := (find?_eq_some_iff hs related q).mp hfind
        show (if q.type.isMonitoring = true then none else _) = none ↔ _
        constructor
        · intro h
          split at h
          · rename_i hmonitoring
            exact ⟨q, hq.1, hq.2, hmonitoring⟩
          · cases h
        · rintro ⟨q', hq', haddress, hmonitoring⟩
          have heq := (find?_eq_some_iff hs related q').mpr ⟨hq', haddress⟩
          rw [hfind] at heq
          rw [Option.some.inj heq, if_pos hmonitoring]
  · rename_i hauto
    exact iff_of_true rfl fun h => absurd h hauto

/-- There is no fault exactly with the valid stations. -/
theorem fault?_eq_none_iff (s : StationConfig) : s.fault? = none ↔ s.Valid := by
  have hpoints : pointsFault? s.address [] s.points = none ↔
      (∀ p ∈ s.points, p.Valid) ∧ (s.points.map (·.address)).Nodup := by
    rw [pointsFault?_eq_none_iff]
    exact and_congr_right fun _ => and_iff_left fun _ _ => List.not_mem_nil
  rw [fault?]
  cases hfault : pointsFault? s.address [] s.points with
  | some fault =>
    refine iff_of_false (Option.some_ne_none _) fun h => ?_
    rw [hpoints.mpr ⟨h.point_valid, h.addresses_distinct⟩] at hfault
    cases hfault
  | none =>
    obtain ⟨hvalid, hdistinct⟩ := hpoints.mp hfault
    show s.points.findSome? s.returnFault? = none ↔ _
    rw [List.findSome?_eq_none_iff]
    constructor
    · intro h
      exact ⟨hvalid, hdistinct, fun p hp => (returnFault?_eq_none_iff hdistinct p).mp (h p hp)⟩
    · intro h p hp
      exact (returnFault?_eq_none_iff hdistinct p).mpr (h.returns_of_autoReturn p hp)

end StationConfig

namespace ServerConfig

/-- There is no fault with valid stations at distinct new addresses. -/
theorem stationsFault?_eq_none_iff (earlier : List CommonAddress) (stations : List StationConfig) :
    stationsFault? earlier stations = none ↔
      (∀ s ∈ stations, s.address ≠ globalAddress ∧ s.Valid) ∧
        (stations.map (·.address)).Nodup ∧ ∀ s ∈ stations, s.address ∉ earlier := by
  induction stations generalizing earlier with
  | nil => exact iff_of_true rfl ⟨List.forall_mem_nil _, .nil, List.forall_mem_nil _⟩
  | cons s rest ih =>
    -- each check of the code is one clause of the three
    rw [stationsFault?, List.forall_mem_cons, List.forall_mem_cons, List.map_cons, List.nodup_cons]
    split
    · rename_i hglobal
      exact iff_of_false (Option.some_ne_none _) fun h => h.1.1.1 hglobal
    · rename_i hglobal
      split
      · rename_i hseen
        exact iff_of_false (Option.some_ne_none _) fun h => h.2.2.1 hseen
      · rename_i hseen
        cases hfault : s.fault? with
        | some fault =>
          refine iff_of_false (Option.some_ne_none _) fun h => ?_
          rw [s.fault?_eq_none_iff.mpr h.1.1.2] at hfault
          cases hfault
        | none =>
          have hvalid := s.fault?_eq_none_iff.mp hfault
          show stationsFault? (s.address :: earlier) rest = none ↔ _
          rw [ih, forall_not_mem_cons]
          tauto

/-- There is no fault exactly with the valid configurations. -/
theorem fault?_eq_none_iff (c : ServerConfig) : c.fault? = none ↔ c.Valid := by
  rw [fault?]
  split
  · rename_i htick
    exact iff_of_false (Option.some_ne_none _) fun h => Nat.not_lt.mpr h.minInterval_le htick
  · rename_i htick
    split
    · rename_i htimeout
      exact iff_of_false (Option.some_ne_none _) fun h => h.selectTimeout_ne_zero htimeout
    · rename_i htimeout
      rw [stationsFault?_eq_none_iff]
      constructor
      · rintro ⟨hvalid, hdistinct, -⟩
        exact ⟨Nat.not_lt.mp htick, htimeout, hdistinct, fun s hs => (hvalid s hs).1,
          fun s hs => (hvalid s hs).2⟩
      · intro h
        exact ⟨fun s hs => ⟨h.station_ne_global s hs, h.station_valid s hs⟩, h.stations_distinct,
          fun _ _ => List.not_mem_nil⟩

instance (c : ServerConfig) : Decidable c.Valid := decidable_of_iff _ c.fault?_eq_none_iff

end ServerConfig

end Telecontrol
