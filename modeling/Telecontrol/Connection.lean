import Telecontrol.Frame.Address

/-! # Connections

A connection is **open** from its first event until it is closed, and an open connection is
**active** while its peer receives. The number of active connections is kept in a counter, which
each event moves by what it finds the connection to have been before.

Main statements: `Connections.state?_onEvent` (an event decides the state of its own connection and
of no other), `Connections.isOpen_iff` and `Connections.isActive_iff` (both questions are read off
that state), `Connections.activeCount_onEvent` (what an event does to the counter). -/

namespace Telecontrol

/-- What happens to a connection. -/
inductive ConnectionEvent where
  | opened
  | closed
  /-- The peer wants to receive. -/
  | activated
  /-- The peer is muted. -/
  | deactivated
  deriving DecidableEq, Repr

/-- The name of an event in messages. -/
def ConnectionEvent.name : ConnectionEvent → String
  | .opened => "Opened"
  | .closed => "Closed"
  | .activated => "Activated"
  | .deactivated => "Deactivated"

/-- The open **connections**, each with whether it is active. -/
structure Connections where
  receivers : Table ConnectionId Bool
  /-- The number of active connections. -/
  activeCount : Nat

namespace Connections

/-- No connection is open. -/
def none : Connections := ⟨.empty, 0⟩

/-- Record an event. An activation of an unknown connection opens it. -/
def onEvent (t : Connections) (connection : ConnectionId) (event : ConnectionEvent) : Connections :=
  let wasActive := t.receivers.find? connection = some true
  match event with
  -- a connection that is opened again has to be activated again
  | .opened | .deactivated =>
    { receivers := t.receivers.insert connection false
      activeCount := if wasActive then t.activeCount - 1 else t.activeCount }
  | .activated =>
    { receivers := t.receivers.insert connection true
      activeCount := if wasActive then t.activeCount else t.activeCount + 1 }
  | .closed =>
    { receivers := t.receivers.erase connection
      activeCount := if wasActive then t.activeCount - 1 else t.activeCount }

/-- Whether a connection is open. -/
def isOpen (t : Connections) (connection : ConnectionId) : Bool := t.receivers.contains connection

/-- Whether a connection is active. -/
def isActive (t : Connections) (connection : ConnectionId) : Bool :=
  (t.receivers.find? connection).getD false

/-- The number of open connections. -/
def openCount (t : Connections) : Nat := t.receivers.size

/-- The open connections, in order. -/
def list (t : Connections) : List ConnectionId := t.receivers.keys

/-- Forget every connection, returning them. -/
def clear (t : Connections) : Connections × List ConnectionId := (none, t.list)

/-! ## The state of a connection -/

/-- The state of a connection: nothing when it is not open, else whether it is active. -/
def state? (t : Connections) (connection : ConnectionId) : Option Bool :=
  t.receivers.find? connection

/-- The state in which an event leaves its connection. -/
def stateAfter : ConnectionEvent → Option Bool
  | .opened | .deactivated => some false
  | .activated => some true
  | .closed => Option.none

/-- Nothing is known of a connection in an empty table. -/
@[simp] theorem state?_none (c : ConnectionId) : none.state? c = Option.none := rfl

/-- An event decides the state of its own connection and leaves all others as they are. -/
theorem state?_onEvent (t : Connections) (c d : ConnectionId) (e : ConnectionEvent) :
    (t.onEvent c e).state? d = if d = c then stateAfter e else t.state? d := by
  by_cases h : d = c
  · subst h
    cases e <;> simp [onEvent, state?, stateAfter]
  · rw [if_neg h]
    cases e <;> simp [onEvent, state?, Table.find?_insert_of_ne _ _ h, Table.find?_erase_of_ne _ h]

/-- A connection is open exactly when it has a state. -/
theorem isOpen_iff (t : Connections) (c : ConnectionId) :
    t.isOpen c = true ↔ (t.state? c).isSome = true := Iff.rfl

/-- A connection is active exactly when its state says so. -/
theorem isActive_iff (t : Connections) (c : ConnectionId) :
    t.isActive c = true ↔ t.state? c = some true := by
  unfold isActive state?
  cases t.receivers.find? c with
  | none => simp
  | some b => cases b <;> simp

/-- What an event does to the counter: one more for a connection that becomes active, one less for
one that was active and is not any more. -/
theorem activeCount_onEvent (t : Connections) (c : ConnectionId) (e : ConnectionEvent) :
    (t.onEvent c e).activeCount =
      if e = .activated then if t.isActive c then t.activeCount else t.activeCount + 1
      else if t.isActive c then t.activeCount - 1 else t.activeCount := by
  simp only [isActive_iff, state?]
  cases e <;> simp [onEvent]

end Connections

end Telecontrol
