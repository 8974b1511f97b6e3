import Telecontrol.Server.Interrogation

/-! # Handling frames

What a server does with a frame of a client. A frame that cannot be handled is rejected: its sender
gets it back with a negative cause, and the application is told. A command is first weighed against
the mode of its point; what it does to the selections and to the point decides its confirmation.

The names follow the course of a frame: `receive`, `dispatch`, then one function per kind of frame,
and for commands `arbitrate` and `settleCommand`. `Server.onFrame` ties the knot: frames handed in
by a callback are handled in the same way. -/

namespace Telecontrol

/-- The qualifier of an interrogation of the whole station. -/
def stationInterrogation : UInt8 := 20

/-- The qualifier of a general counter request. -/
def generalCounterRequest : UInt8 := 5

/-- The bits of a counter qualifier that name the request. -/
def counterRequestMask : UInt8 := 0x3F

/-- How long an executed selection is kept, in milliseconds. -/
def releaseDelay : Nat := 100

namespace Message

/-- The types of frames that a controlled station handles. -/
def isControl (m : Message) : Bool :=
  m.type.isCommand || match m.type with
    | .C_IC_NA_1 | .C_CI_NA_1 | .C_RD_NA_1 | .C_CS_NA_1 => true
    | _ => false

/-- The selection that a message stands for. -/
def selection (m : Message) (c : ConnectionId) (now : Int) : Selection where
  connection := c
  originator := m.originator
  station := m.station
  address := m.address
  type := m.type
  created := now

/-- Whether a message executes a command. -/
def isExecute (m : Message) : Bool := m.cause == .activation && !m.isSelect

end Message

namespace Server

/-- Why a message is refused before it is looked at, if it is. -/
def refusal? (s : Server) (m : Message) : Option Rejection :=
  if m.isControl && !m.hasValidCause then some .invalidCause
  else if !s.plant.answersTo m.station then some .unknownStation
  else none

/-! ## Interrogation, reading and the clock -/

/-- Confirm an interrogation, send what it asks for and end it. -/
def answerInterrogation (inlet : Inlet) (c : ConnectionId) (m : Message) (cause : Cause) :
    Act Unit := do
  modify (·.confirm c m false)
  discard <| interrogate inlet cause m.station c
  modify (·.terminate c m)

/-- Refuse an interrogation of a group that does not exist. -/
def refuseGroup (inlet : Inlet) (c : ConnectionId) (m : Message) : Act Unit := do
  modify (·.confirm c m true)
  reject inlet c m.frame .unimplementedGroup

/-- An interrogation command; its deactivation has nothing to interrupt. -/
def onInterrogation (inlet : Inlet) (c : ConnectionId) (m : Message) : Act Unit :=
  if m.cause = .deactivation then modify (·.confirm c m false)
  else if m.qualifier ≠ stationInterrogation then refuseGroup inlet c m
  else answerInterrogation inlet c m .interrogatedByStation

/-- A counter interrogation command. -/
def onCounterInterrogation (inlet : Inlet) (c : ConnectionId) (m : Message) : Act Unit :=
  if m.qualifier &&& counterRequestMask ≠ generalCounterRequest then refuseGroup inlet c m
  else answerInterrogation inlet c m .requestedByGeneralCounter

/-- The point that a message is about, or why there is none. -/
def target (s : Server) (m : Message) : Except Rejection (StationId × PointId × Point) :=
  match s.plant.find? m.station with
  | none => .error .unknownStation
  | some id =>
    match s.plant.pointId? id m.address with
    | none => .error .unknownObject
    | some point =>
      match s.point? point with
      | none => .error .unknownObject
      | some p => .ok (id, point, p)

/-- A read command: the answer carries the value of the point. -/
def onRead (inlet : Inlet) (c : ConnectionId) (m : Message) : Act Unit := do
  match (← get).target m with
  | .error why => reject inlet c m.frame why
  | .ok (_, id, p) =>
    if p.type.isReadable then
      call inlet .beforeRead id
      modify fun s =>
        match s.transmitPoint id .request (some c) with
        | (s, some (.error e)) => s.report (.readFailed p.address e)
        | (s, _) => s
    else reject inlet c m.frame .invalidTypeId

/-- Ask the application to set the clock. A command without a time fails. -/
def setClock (s : Server) (c : ConnectionId) (m : Message) : Server × Answer :=
  match m.time with
  | none => (s, .failure)
  | some time =>
    match s.callbacks.clock with
    | none => (s, .success)
    | some answer => (s.note (.clockSet ((s.transport.peer? c).getD "") time), answer)

/-- Confirm a message as an answer says, if it wants a confirmation and the answer is one. -/
def confirmAs (s : Server) (c : ConnectionId) (m : Message) (answer : Answer) : Server :=
  if answer ≠ .none && m.needsConfirmation then s.confirm c m (answer == .failure) else s

/-- A clock synchronisation command. -/
def onClock (c : ConnectionId) (m : Message) : Act Unit := modify fun s =>
  let (s, answer) := s.setClock c m
  s.confirmAs c m answer

/-! ## Commands -/

/-- Release the selection of a message, if its sender holds one. -/
def deactivate (s : Server) (held : Selection) : Server × Answer :=
  if s.selections.isHeldBy s.now held then
    let s := (s.selections.find? held.station held.address).elim s
      fun ended => s.note (.ended ended .deactivated)
    ({ s with selections := s.selections.remove held.station held.address }, .success)
  else (s, .failure)

/-- Select a point for the sender of a message. -/
def select (s : Server) (p : Point) (wanted : Selection) : Server × Answer :=
  match s.selections.add s.now wanted with
  | .error e => (s.report (.selectRejected p.address e), .failure)
  | .ok (_, false) => (s, .failure)
  | .ok (selections, true) => ({ s with selections }.note (.granted wanted), .success)

/-- Weigh a command against the mode of its point. A selection is needed to execute in
select-and-execute mode and cannot be had in direct mode. -/
def arbitrate (inlet : Inlet) (c : ConnectionId) (m : Message) (id : PointId) (p : Point) :
    Act Answer := do
  let s ← get
  let wanted := m.selection c s.now
  -- a deactivation releases a selection, whatever the mode of the point
  if m.cause = .deactivation then
    let (s, answer) := s.deactivate wanted
    set s
    return answer
  match p.mode, m.isSelect with
  | .direct, true => return .failure
  | .direct, false => applyCommand inlet c m id
  | .selectAndExecute, true =>
    let (s, answer) := s.select p wanted
    set s
    return answer
  | .selectAndExecute, false =>
    if s.selections.isHeldBy s.now wanted then applyCommand inlet c m id else return .failure

/-- The handle of the point that shows the effect of a command. -/
def returnTarget (s : Server) (station : StationId) (p : Point) : Option Handle :=
  if p.autoReturn then p.related.bind (s.plant.handle? station) else none

/-- End an executed activation and release its selection a little later. -/
def concludeExecute (s : Server) (c : ConnectionId) (m : Message) : Server :=
  let s := s.terminate c m
  match s.selections.find? m.station m.address with
  | none => s
  -- the instant of the grant tells the executed selection from a renewed one
  | some held => s.defer releaseDelay (.release m.station m.address held.created)

/-- What follows from the answer to a command: its confirmation, for an execute by selection the
termination and the release, and the return of the related point. -/
def settleCommand (s : Server) (c : ConnectionId) (m : Message) (station : StationId) (p : Point)
    (answer : Answer) : Server :=
  let executed := answer = .success && m.isExecute
  -- the related point is looked up as the callback has left the station
  let related := if executed then s.returnTarget station p else none
  let s := s.confirmAs c m answer
  let s := if executed && p.mode == .selectAndExecute then s.concludeExecute c m else s
  related.elim s fun h => s.defer 0 (.autoReturn h)

/-- A command, or a frame of a type that no client sends. -/
def onCommand (inlet : Inlet) (c : ConnectionId) (m : Message) : Act Unit := do
  let s ← get
  let target : Except Rejection (StationId × PointId × Point) := do
    -- a type that is no command is noticed before an unknown address
    unless m.type.isCommand do throw .invalidTypeId
    let found ← s.target m
    unless found.2.2.type = m.type do throw .mismatchedTypeId
    return found
  match target with
  -- a refused command is confirmed negatively and then mirrored
  | .error why =>
    modify (·.confirmAs c m .failure)
    reject inlet c m.frame why
  | .ok (station, id, p) =>
    let answer ← arbitrate inlet c m id p
    modify (·.settleCommand c m station p answer)

/-! ## Every frame -/

/-- Handle a message according to its type. -/
def dispatch (inlet : Inlet) (c : ConnectionId) (m : Message) : Act Unit :=
  match m.type with
  | .C_IC_NA_1 => onInterrogation inlet c m
  | .C_CI_NA_1 => onCounterInterrogation inlet c m
  | .C_RD_NA_1 => onRead inlet c m
  | .C_CS_NA_1 => onClock c m
  | _ => onCommand inlet c m

/-- Handle a frame. A stopped server drops it. -/
def receive (inlet : Inlet) (c : ConnectionId) (f : WireFrame) : Act Unit := do
  let s ← get
  if s.running then
    match Message.ofFrame f with
    | .error why => reject inlet c f why
    | .ok m =>
      match s.refusal? m with
      | some why =>
        if m.needsConfirmation then modify (·.confirm c m true)
        reject inlet c f why
      | none => dispatch inlet c m

/-- Handle a frame, and the frames that callbacks hand in meanwhile, to a depth. -/
def receiveWithin : Nat → Inlet
  | 0 => fun _ _ => return
  | depth + 1 => receive (receiveWithin depth)

/-- How deep callbacks and frames may nest. -/
def nesting : Nat := 1000

/-- Handle a frame of a client. -/
def onFrame : Inlet := receiveWithin nesting

end Server

end Telecontrol
