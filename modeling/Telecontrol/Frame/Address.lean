import Telecontrol.Table

/-! # Addresses

The numbers by which the parts of a telecontrol system are named, with the limits of
IEC 60870-5-104. Times are counted in milliseconds, as integers. -/

namespace Telecontrol

/-- The **common address** of a station. -/
abbrev CommonAddress := UInt16

/-- The **address of an information object**. Frames may carry any 32-bit number; a point of a
station has an address of three octets. -/
abbrev ObjectAddress := UInt32

/-- The **originator address** by which clients of one connection are told apart. -/
abbrev Originator := UInt8

/-- The common address that addresses every station. -/
def globalAddress : CommonAddress := 65535

/-- The highest address of a point: three octets. -/
def maxObjectAddress : ObjectAddress := 16777215

/-- The identity of a **connection**, given by the transport. -/
structure ConnectionId where
  number : UInt64
  deriving DecidableEq, Repr, Inhabited

namespace ConnectionId

/-- How a connection is named in messages. -/
def text (c : ConnectionId) : String := "conn#" ++ toString c.number.toNat

instance : Ranked ConnectionId where
  rank c := c.number.toNat
  rank_injective {a b} h := by
    cases a; cases b
    exact congrArg _ (UInt64.toNat_inj.mp h)

end ConnectionId

end Telecontrol
