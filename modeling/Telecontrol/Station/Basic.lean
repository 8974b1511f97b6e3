import Telecontrol.Error
import Telecontrol.Point.Store

/-! # Stations

A **station** lists the handles of its points by their addresses. The points themselves are in the
point store, where a handle may have been given up behind the station's back; the station then still
lists it.

Main statement: `PointSpec.fault?_eq_none_iff`, which says what a point of a station may be. -/

namespace Telecontrol

/-! ## Checks -/

/-- Of checks made in turn nothing is found when the first finds nothing and neither do the later
ones. -/
theorem check_eq_none_iff {ε : Type} {c : Prop} [Decidable c] {fault : ε} {later : Option ε} :
    (if c then some fault else later) = none ↔ ¬ c ∧ later = none := by
  split <;> simp [*]

/-- A point passes the check of cyclic reports when it is no command or has no interval. -/
theorem not_cyclicCommand_iff (type : TypeId) (interval : UInt64) :
    ¬ (type.isCommand && decide (0 < interval)) = true ↔
      (type.isCommand = true → interval = 0) := by
  simp [UInt64.pos_iff_ne_zero]

/-- A point passes the check of its mode when it is executed directly or its type is selectable. -/
theorem not_unselectable_iff (mode : CommandMode) (type : TypeId) :
    ¬ (mode == .selectAndExecute && !type.isSelectable) = true ↔
      (mode = .selectAndExecute → type.isSelectable = true) := by
  cases mode <;> simp

/-! ## Admissible points -/

namespace PointSpec

/-- The first reason why a station refuses a point, if there is one. -/
def fault? (spec : PointSpec) : Option ServerError :=
  if maxObjectAddress < spec.address then some (.outOfRange (.objectAddress spec.address))
  else if !spec.type.isPointType then some (.invalidArgument (.notPointType spec.type))
  else if spec.type.isCommand && 0 < spec.reportInterval then
    some (.invalidArgument (.cyclicCommand spec.address))
  else if spec.mode == .selectAndExecute && !spec.type.isSelectable then
    some (.invalidArgument (.notSelectAndExecute spec.type))
  else if spec.autoReturn && spec.related.isNone then
    some (.invalidArgument (.autoReturnWithoutRelated spec.address))
  else none

/-- What a point of a station may be. -/
structure Admissible (spec : PointSpec) : Prop where
  address_le : spec.address ≤ maxObjectAddress
  isPointType : spec.type.isPointType = true
  silent_of_isCommand : spec.type.isCommand = true → spec.reportInterval = 0
  isSelectable_of_mode : spec.mode = .selectAndExecute → spec.type.isSelectable = true
  related_of_autoReturn : spec.autoReturn = true → spec.related.isSome = true

/-- A station finds no fault exactly with the admissible points. -/
theorem fault?_eq_none_iff (spec : PointSpec) : spec.fault? = none ↔ spec.Admissible := by
  have hrelated : ¬ (spec.autoReturn && spec.related.isNone) = true ↔
      (spec.autoReturn = true → spec.related.isSome = true) := by
    cases spec.related <;> simp
  rw [fault?, check_eq_none_iff, check_eq_none_iff, check_eq_none_iff, check_eq_none_iff,
    check_eq_none_iff, UInt32.not_lt, not_cyclicCommand_iff, not_unselectable_iff, hrelated]
  -- each check that is passed is a clause of admissibility
  constructor
  · rintro ⟨haddress, htype, hcyclic, hmode, hreturn, -⟩
    exact ⟨haddress, by simpa using htype, hcyclic, hmode, hreturn⟩
  · rintro ⟨haddress, htype, hcyclic, hmode, hreturn⟩
    exact ⟨haddress, by simp [htype], hcyclic, hmode, hreturn, rfl⟩

end PointSpec

/-! ## The stations themselves -/

/-- A **station**: the points it lists, by their addresses. -/
structure Station where
  address : CommonAddress
  points : Table ObjectAddress Handle := .empty

namespace Station

/-- The handle listed at an address. -/
def handle? (s : Station) (address : ObjectAddress) : Option Handle := s.points.find? address

/-- Whether a handle is listed at an address. -/
def lists (s : Station) (address : ObjectAddress) : Bool := s.points.contains address

/-- The number of handles listed. -/
def size (s : Station) : Nat := s.points.size

/-- The station in words. -/
def describe (s : Station) : String :=
  s!"Station \x7b common_address: {s.address.toNat}, points: {s.size} \x7d"

end Station

end Telecontrol
