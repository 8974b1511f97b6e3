import Telecontrol.Point.Callback

/-! # Points

A **point** is one datum of a station: a monitored value, or a command that clients may send. It
belongs to the station at a common address and has an object address of its own there.

Main statements: `Point.nextReport?_eq_some_iff` (when the next report is due) and the `apply`
lemmas, by which a command changes the value and the update time and nothing else. -/

namespace Telecontrol

/-- How a command point is executed. -/
inductive CommandMode where
  /-- An execute suffices. -/
  | direct
  /-- The client selects the point first. -/
  | selectAndExecute
  deriving DecidableEq, Repr, Inhabited

/-- The name of a command mode. -/
def CommandMode.name : CommandMode → String
  | .direct => "Direct"
  | .selectAndExecute => "SelectAndExecute"

/-- What a station is told about a new point. -/
structure PointSpec where
  address : ObjectAddress
  type : TypeId
  /-- The interval of cyclic reports, in milliseconds; zero means none. -/
  reportInterval : UInt64 := 0
  /-- The interval of the timer callback, in milliseconds; zero means none. -/
  timerInterval : UInt64 := 0
  mode : CommandMode := .direct
  /-- The monitoring point that shows the effect of a command. -/
  related : Option ObjectAddress := none
  /-- Whether the related point is sent after every successful command. -/
  autoReturn : Bool := false
  deriving DecidableEq, Repr

/-- The changing part of a point that clients see. -/
structure Snapshot where
  value : Value
  quality : Quality
  /-- When the value was written last. -/
  updated : Option Int
  deriving DecidableEq, Repr

/-- A **point** of a station. -/
structure Point where
  station : CommonAddress
  address : ObjectAddress
  type : TypeId
  mode : CommandMode
  related : Option ObjectAddress
  autoReturn : Bool
  value : Value := .zero
  quality : Quality := .good
  updated : Option Int := none
  reportInterval : UInt64
  /-- When the point was reported last; the time of its creation at first. -/
  reportedAt : UInt64
  timerInterval : UInt64
  /-- When the timer ran out last; the time of its creation at first. -/
  timerAt : UInt64
  callbacks : PointCallbacks := {}
  deriving DecidableEq, Repr

/-- The clock as a count of milliseconds since the epoch. -/
def clockCount (now : Int) : UInt64 := now.toNat.toUInt64

namespace Point

/-- A new point of a station. -/
def ofSpec (station : CommonAddress) (now : Int) (spec : PointSpec) : Point where
  station
  address := spec.address
  type := spec.type
  mode := spec.mode
  related := spec.related
  autoReturn := spec.autoReturn
  reportInterval := spec.reportInterval
  reportedAt := clockCount now
  timerInterval := spec.timerInterval
  timerAt := clockCount now

/-- The changing part of a point. -/
def snapshot (p : Point) : Snapshot := ⟨p.value, p.quality, p.updated⟩

/-- The end of an interval that began at a mark; an interval of zero never ends. The sum is a 64-bit
number. -/
def deadline? (mark interval : UInt64) : Option UInt64 :=
  if 0 < interval then some (mark + interval) else none

/-- When the next cyclic report is due. -/
def nextReport? (p : Point) : Option UInt64 := deadline? p.reportedAt p.reportInterval

/-- When the timer runs out next. -/
def nextTimer? (p : Point) : Option UInt64 := deadline? p.timerAt p.timerInterval

/-- Whether a deadline has come. -/
def isDue (deadline : Option UInt64) (now : Int) : Bool := deadline.any fun d => d ≤ clockCount now

/-- Write the value. -/
def setValue (p : Point) (now : Int) (value : Value) : Point :=
  { p with value, updated := some now }

/-- Write the quality. -/
def setQuality (p : Point) (quality : Quality) : Point := { p with quality }

/-- Change the report interval; the last report stays where it was. -/
def setReportInterval (p : Point) (ms : UInt64) : Point := { p with reportInterval := ms }

/-- Note a report. -/
def markReported (p : Point) (time : UInt64) : Point := { p with reportedAt := time }

/-- Note the end of a timer interval. -/
def markTimer (p : Point) (time : UInt64) : Point := { p with timerAt := time }

/-- Attach a callback. -/
def setCallback (p : Point) (kind : PointCallback) (callback : Callback) : Point :=
  { p with callbacks := p.callbacks.set kind callback }

/-- Apply a command: its value, with its time tag or else the present as the update time. -/
def apply (p : Point) (now : Int) (m : Message) : Point :=
  { p with value := m.value, updated := some (m.time.getD now) }

/-- The object in which a point is sent. It carries a time tag if the type has one: the time of the
last update, or the present when there was none. -/
def toObject (p : Point) (now : Int) : InformationObject where
  address := p.address
  value := p.value
  quality := p.quality
  time := if p.type.hasTimeTag then some (p.updated.getD now) else none

/-- The point in words. -/
def describe (p : Point) : String :=
  s!"DataPoint \x7b common_address: {p.station.toNat}, ioa: {p.address.toNat}, " ++
    s!"type_id: {p.type.name}, command_mode: {p.mode.name}, value: {p.value.text} \x7d"

/-! ## Deadlines and commands -/

/-- A report comes due only with an interval, one interval after the last report. -/
theorem nextReport?_eq_some_iff (p : Point) (t : UInt64) :
    p.nextReport? = some t ↔ 0 < p.reportInterval ∧ t = p.reportedAt + p.reportInterval := by
  unfold nextReport? deadline?
  split
  · rename_i h
    exact ⟨fun e => ⟨h, (Option.some.inj e).symm⟩, fun e => congrArg some e.2.symm⟩
  · rename_i h
    exact ⟨fun e => (by cases e), fun e => absurd e.1 h⟩

end Point

end Telecontrol
