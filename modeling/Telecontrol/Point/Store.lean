import Telecontrol.Point.Basic
import Telecontrol.Point.Registry

/-! # The points of a server

The **point store** numbers the points of a server in the order in which they were made. A number is
never given twice. The registry of the store says which points are **live**: a point that was
removed keeps its number and its data for whoever still works with it, but no handle resolves to it.

Main statements: `PointStore.point?_modify` and `PointStore.resolve?_modify` (writing to a point
changes that point and no handle). -/

namespace Telecontrol

/-- The number of a point. -/
abbrev PointId := Nat

/-- The **points** of a server, live or removed. -/
structure PointStore where
  points : Array Point
  registry : Registry PointId

namespace PointStore

/-- No points yet. -/
def empty : PointStore := ⟨#[], .empty⟩

instance : Inhabited PointStore := ⟨empty⟩

/-- The number of a live point. -/
def resolve? (s : PointStore) (h : Handle) : Option PointId := s.registry.get? h

/-- A point by its number, live or removed. -/
def point? (s : PointStore) (id : PointId) : Option Point := s.points[id]?

/-- The live point of a handle. -/
def get? (s : PointStore) (h : Handle) : Option Point := (s.resolve? h).bind s.point?

/-- Whether a handle resolves to a live point. -/
def contains (s : PointStore) (h : Handle) : Bool := s.registry.contains h

/-- The number of live points. -/
def size (s : PointStore) : Nat := s.registry.size

/-- Make a point. -/
def insert (s : PointStore) (p : Point) : PointStore × Handle :=
  let (registry, handle) := s.registry.insert s.points.size
  (⟨s.points.push p, registry⟩, handle)

/-- Remove a live point. -/
def remove (s : PointStore) (h : Handle) : PointStore := { s with registry := s.registry.remove h }

/-- Remove several live points. -/
def removeAll (s : PointStore) (hs : List Handle) : PointStore :=
  { s with registry := s.registry.removeAll hs }

/-- Write to a point. -/
def modify (s : PointStore) (id : PointId) (f : Point → Point) : PointStore :=
  { s with points := s.points.modify id f }

/-- A change of a point changes nothing about what handles resolve to. -/
@[simp] theorem resolve?_modify (s : PointStore) (id : PointId) (f : Point → Point) (h : Handle) :
    (s.modify id f).resolve? h = s.resolve? h := rfl

/-- Writing to a point changes that point only. -/
theorem point?_modify (s : PointStore) (id id' : PointId) (f : Point → Point) :
    (s.modify id f).point? id' = if id = id' then (s.point? id').map f else s.point? id' := by
  simp only [modify, point?, Array.getElem?_modify]

end PointStore

end Telecontrol
