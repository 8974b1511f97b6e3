import Telecontrol.Error
import Telecontrol.Frame.Outgoing
import Telecontrol.Point.Store

/-! # Batches

A **batch** collects monitoring points of one type and one station, to be sent in as few frames as
they fit in. It holds handles: a point that is removed drops out of the batch by itself.

Main statement: `Batch.add_eq_ok_iff`, which says when a point is accepted. -/

namespace Telecontrol

/-- A **batch** of points to be sent with one cause. -/
structure Batch where
  cause : Cause
  test : Bool := false
  negative : Bool := false
  /-- Type and station of the batch, fixed by its first point. -/
  kind : Option (TypeId × CommonAddress) := none
  /-- The handles added, by the addresses of their points. -/
  members : Table ObjectAddress Handle := .empty

/-- Pack objects into frames, in order. A full frame is followed by a fresh one; an object that is
refused even then is left out. The answer lists the frames and the addresses left out. -/
def pack (fresh : Frame) : Frame → List InformationObject → List Frame × List ObjectAddress
  -- a frame without objects is not worth sending
  | current, [] => (if current.objects.isEmpty then [] else [current], [])
  | current, o :: rest =>
    match current.tryAdd o with
    | some next => pack fresh next rest
    -- the current frame is full: it is done, and the object begins another
    | none =>
      match fresh.tryAdd o with
      | some next =>
        let (frames, lost) := pack fresh next rest
        (current :: frames, lost)
      | none =>
        let (frames, lost) := pack fresh fresh rest
        (current :: frames, o.address :: lost)

namespace Batch

/-- The type of the batch. -/
def type? (b : Batch) : Option TypeId := b.kind.map (·.1)

/-- The station of the batch. -/
def station? (b : Batch) : Option CommonAddress := b.kind.map (·.2)

/-- The first reason why the batch refuses a point, if there is one. -/
def fault? (b : Batch) (s : PointStore) (p : Point) : Option ArgumentFault :=
  if !p.type.isMonitoring then some (.notMonitoring p.type p.address)
  else match b.kind with
    | none => none
    | some (type, station) =>
      if type ≠ p.type then some (.batchType type p.type)
      else if station ≠ p.station then some (.batchStation station p.station)
      -- a member whose point is gone does not block its address
      else if (b.members.find? p.address).any s.contains then some (.batchAddress p.address)
      else none

/-- Add the point of a handle. The first point fixes type and station of the batch; an address is
free again when its point is gone. -/
def add (b : Batch) (s : PointStore) (h : Handle) : Except ServerError Batch :=
  match s.get? h with
  | none => .error (.invalidArgument .pointGone)
  | some p =>
    match b.fault? s p with
    | some fault => .error (.invalidArgument fault)
    | none =>
      .ok { b with
        kind := some (p.type, p.station)
        members := b.members.insert p.address h }

/-- The live points of the batch, in the order of their addresses. -/
def points (b : Batch) (s : PointStore) : List Point := b.members.values.filterMap s.get?

/-- The addresses whose points are live, in order. -/
def liveAddresses (b : Batch) (s : PointStore) : List ObjectAddress :=
  (b.members.entries.filter fun e => s.contains e.2).map (·.1)

/-- The number of live points. -/
def size (b : Batch) (s : PointStore) : Nat := (b.liveAddresses s).length

/-- Whether there are live points. -/
def hasPoints (b : Batch) (s : PointStore) : Bool := 0 < b.size s

/-- Whether each address follows its predecessor. -/
def isContiguous : List ObjectAddress → Bool
  | a :: b :: rest => b == a + 1 && isContiguous (b :: rest)
  | _ => true

/-- Whether the live addresses are one run without gaps. -/
def isSequence (b : Batch) (s : PointStore) : Bool := isContiguous (b.liveAddresses s)

/-- The frames that carry the live points, and the addresses that fit in no frame. Points without
gaps are sent in sequence frames. -/
def frames (b : Batch) (s : PointStore) (now : Int) (originator : Originator) :
    List Frame × List ObjectAddress :=
  match b.kind with
  | none => ([], [])
  | some (type, station) =>
    let points := b.points s
    let fresh : Frame := {
      type, station, originator
      cause := b.cause
      test := b.test
      negative := b.negative
      -- a single point is always without gaps, but is sent with its own address
      sequence := 1 < points.length && b.isSequence s }
    pack fresh fresh (points.map (·.toObject now))

/-- A point is accepted when its handle resolves and the batch finds no fault with it. -/
theorem add_eq_ok_iff (b c : Batch) (s : PointStore) (h : Handle) :
    b.add s h = .ok c ↔
      ∃ p, s.get? h = some p ∧ b.fault? s p = none ∧
        c = { b with
          kind := some (p.type, p.station)
          members := b.members.insert p.address h } := by
  unfold add
  cases hg : s.get? h with
  | none => simp
  | some p =>
    cases hf : b.fault? s p with
    | some fault => simp [hf]
    | none =>
      simp only [hf, Except.ok.injEq, Option.some.injEq]
      exact ⟨fun e => ⟨p, rfl, hf, e.symm⟩, fun ⟨q, hq, _, e⟩ => by subst hq; exact e.symm⟩

end Batch

end Telecontrol
