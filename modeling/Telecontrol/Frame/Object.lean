import Telecontrol.Frame.Address
import Telecontrol.Frame.Quality
import Telecontrol.Value

/-! # Information objects

An **information object** is an address with the element that belongs to it: a value with its
quality for a report, the select bit and the qualifier for a command, and a time tag where the type
has one. -/

namespace Telecontrol

/-- One **information object** of a frame. -/
structure InformationObject where
  address : ObjectAddress
  value : Value := .zero
  quality : Quality := .good
  /-- The select bit of a command: select when set, execute when clear. -/
  select : Bool := false
  /-- The qualifier without the select bit. -/
  qualifier : UInt8 := 0
  /-- The time tag. -/
  time : Option Int := none
  deriving DecidableEq, Repr, Inhabited

end Telecontrol
