import Telecontrol.Frame.Cause
import Telecontrol.Frame.Object
import Telecontrol.Frame.TypeId

/-! # Outgoing frames

A **frame** holds information objects of one type. It grows by one object at a time and refuses an
object that does not fit: a frame has at most 127 objects and 249 octets, and in a sequence frame,
which sends only the first address, the addresses are consecutive.

Main statements: `Frame.tryAdd_eq_some_iff` says when an object is taken and `Frame.tryAdd_objects`
what the frame holds then. -/

namespace Telecontrol

/-- The octets a frame has at most. -/
def maxFrameSize : Nat := 249

/-- The objects a frame counts at most: its counter has seven bits. -/
def maxObjectCount : Nat := 127

/-- The octets before the first object: type, counter, cause and common address. -/
def frameHeaderSize : Nat := 6

/-- The octets of an object address. -/
def objectAddressSize : Nat := 3

/-- An outgoing **frame**. -/
structure Frame where
  type : TypeId
  cause : Cause
  station : CommonAddress
  originator : Originator := 0
  test : Bool := false
  negative : Bool := false
  /-- Only the first address is sent; the others follow from it. -/
  sequence : Bool := false
  objects : List InformationObject := []
  deriving DecidableEq, Repr

namespace Frame

/-- The octets of a frame with `count` objects of a type. -/
def sizeFor (type : TypeId) (sequence : Bool) (count : Nat) : Nat :=
  if count = 0 then frameHeaderSize
  else if sequence then frameHeaderSize + objectAddressSize + count * type.elementSize
  else frameHeaderSize + count * (objectAddressSize + type.elementSize)

/-- The octets of a frame. -/
def size (f : Frame) : Nat := sizeFor f.type f.sequence f.objects.length

/-- Whether one more object keeps within the limits of count and size. -/
def hasRoom (f : Frame) : Bool :=
  f.objects.length + 1 ≤ maxObjectCount &&
    sizeFor f.type f.sequence (f.objects.length + 1) ≤ maxFrameSize

/-- Whether an address continues the frame: in a sequence it follows the last one. -/
def continues (f : Frame) (address : ObjectAddress) : Bool :=
  match f.sequence, f.objects.getLast? with
  | true, some last => address == last.address + 1
  | _, _ => true

/-- Append an object, if the frame has room for it and its address continues the frame. -/
def tryAdd (f : Frame) (object : InformationObject) : Option Frame :=
  if f.hasRoom && f.continues object.address then
    some { f with objects := f.objects ++ [object] }
  else none

/-- Offer objects one after the other; those that are refused are left out. The answers say which
were taken. -/
def offer (f : Frame) : List InformationObject → Frame × List Bool
  | [] => (f, [])
  | o :: rest =>
    match f.tryAdd o with
    | some g => let (last, taken) := g.offer rest; (last, true :: taken)
    | none => let (last, taken) := f.offer rest; (last, false :: taken)

/-- A frame takes an object exactly when it has room and the address continues it. -/
theorem tryAdd_eq_some_iff (f g : Frame) (o : InformationObject) :
    f.tryAdd o = some g ↔
      (f.hasRoom = true ∧ f.continues o.address = true) ∧
        g = { f with objects := f.objects ++ [o] } := by
  unfold tryAdd
  split
  · rename_i h
    rw [Bool.and_eq_true] at h
    exact ⟨fun e => ⟨h, (Option.some.inj e).symm⟩, fun e => congrArg some e.2.symm⟩
  · rename_i h
    rw [Bool.and_eq_true] at h
    exact ⟨fun e => (by cases e), fun e => absurd e.1 h⟩

/-- The object taken becomes the last one; all else is as before. -/
theorem tryAdd_objects {f g : Frame} {o : InformationObject} (h : f.tryAdd o = some g) :
    g.objects = f.objects ++ [o] := by
  rw [((tryAdd_eq_some_iff f g o).mp h).2]

end Frame

end Telecontrol
