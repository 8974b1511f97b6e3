import Telecontrol.Proofs.Emission

/-! # How a frame is answered

Every frame that reaches a running server is answered by a fixed **protocol**: a confirmation round,
then data, then a termination round or a single negative mirror. This module says what each part is,
frame by frame, from the state in which the frame arrives: why it is rejected (`rejection?`), whom
the server asks (`asked?`), what the verdict is (`verdict`) and which frames follow from it
(`confirmations`, `conclusion`, `complaints`). The frames are written out with the codes and flags
they carry, whatever builds them.

Results: confirmations, terminations and mirrors are built as foreseen (`Message.confirmation_eq`,
`Message.termination_eq`, `WireFrame.mirrorFor?_eq`); copies of a frame are what a reply sends
(`says_reply`); the confirmation round is the one of the verdict (`confirmations_eq`); every frame
of an answer repeats the frame that is answered (`repeats_of_mem_answer`). -/

namespace Telecontrol

/-- The kinds of frames that are handled differently. -/
inductive FrameKind where
  | interrogation
  | counters
  | read
  | clock
  /-- A command, or a frame of a type that no client sends. -/
  | command
  deriving DecidableEq, Repr

/-- The kind of frames of a type. -/
def TypeId.kind : TypeId → FrameKind
  | .C_IC_NA_1 => .interrogation
  | .C_CI_NA_1 => .counters
  | .C_RD_NA_1 => .read
  | .C_CS_NA_1 => .clock
  | _ => .command

/-- The cause code of the negative mirror of a rejected frame: 44 for its type, 45 for its cause,
46 for its common address and 47 for the address of its object. A group that does not exist is only
confirmed negatively. -/
def Rejection.mirrorCode? : Rejection → Option UInt8
  | .invalidTypeId | .mismatchedTypeId | .unknownTypeId => some 44
  | .invalidCause | .unknownCause => some 45
  | .unknownStation => some 46
  | .unknownObject => some 47
  | .unimplementedGroup => none

namespace WireFrame

/-- A frame **repeats** another one but for its cause, its negative flag and, when the other one was
sent to all stations, its common address. -/
structure Repeats (g f : WireFrame) : Prop where
  typeCode : g.typeCode = f.typeCode
  station : f.station ≠ globalAddress → g.station = f.station
  originator : g.originator = f.originator
  test : g.test = f.test
  sequence : g.sequence = f.sequence
  objects : g.objects = f.objects

/-- The **mirror** of a frame that is rejected: the frame itself, negative, with the code of the
rejection. -/
def mirrorFor? (f : WireFrame) (why : Rejection) : Option WireFrame :=
  why.mirrorCode?.map fun causeCode => { f with causeCode, negative := true }

/-- Another cause, another negative flag and, for a frame to all stations, another common address
make no difference to what is repeated. -/
theorem repeats_with (f : WireFrame) (causeCode : UInt8) (negative : Bool)
    {station : CommonAddress} (h : f.station ≠ globalAddress → station = f.station) :
    Repeats { f with causeCode, negative, station } f :=
  ⟨rfl, h, rfl, rfl, rfl, rfl⟩

end WireFrame

/-! ## The frames that are built -/

/-- A confirmation carries cause code 9 when it answers a deactivation and 7 otherwise. -/
theorem Message.confirmation_eq {f : WireFrame} {m : Message} (hf : Message.ofFrame f = .ok m)
    (negative : Bool) :
    m.confirmation negative =
      { f with causeCode := if m.cause = .deactivation then 9 else 7, negative } := by
  rw [confirmation, frame_of_ofFrame hf]
  split <;> rfl

/-- A termination carries cause code 10 and is not negative. -/
theorem Message.termination_eq {f : WireFrame} {m : Message} (hf : Message.ofFrame f = .ok m) :
    m.termination = { f with causeCode := 10, negative := false } := by
  rw [termination, frame_of_ofFrame hf]
  rfl

/-- The mirror of a rejected frame carries the code of the rejection. -/
theorem WireFrame.mirrorFor?_eq (f : WireFrame) (why : Rejection) :
    f.mirrorFor? why = why.answerCause.map f.mirror := by
  cases why <;> rfl

namespace Server

/-! ## What is foreseen -/

/-- The frames that stand for one: itself, or one for each station, in ascending order of their
addresses, when it is sent to all. -/
def copies (s : Server) (f : WireFrame) : List WireFrame :=
  if f.station = globalAddress then s.plant.roster.keys.map fun station => { f with station }
  else [f]

/-- Why a message is rejected, if it is. -/
def complaint? (s : Server) (m : Message) : Option Rejection :=
  match s.refusal? m with
  | some why => some why
  | none =>
    match m.type.kind with
    | .interrogation =>
      if m.cause ≠ .deactivation ∧ m.qualifier ≠ stationInterrogation then
        some .unimplementedGroup
      else none
    | .counters =>
      if m.qualifier &&& counterRequestMask ≠ generalCounterRequest then some .unimplementedGroup
      else none
    | .read =>
      match s.target m with
      | .error why => some why
      | .ok (_, _, p) => if p.type.isReadable then none else some .invalidTypeId
    | .clock => none
    | .command =>
      match s.commandTarget m with
      | .error why => some why
      | .ok _ => none

/-- Why a frame is rejected, if it is. -/
def rejection? (s : Server) (f : WireFrame) : Option Rejection :=
  match Message.ofFrame f with
  | .error why => some why
  | .ok m => s.complaint? m

/-- Whether a command for a point is applied to it. -/
def applies (s : Server) (c : ConnectionId) (m : Message) (p : Point) : Bool :=
  m.cause != .deactivation && !m.isSelect &&
    (p.mode == .direct || s.selections.isHeldBy s.now (m.selection c s.now))

/-- The answer of the callback that is asked about a message, if one is asked: the clock callback
about a time, the receive callback of a point about a command that is applied. -/
def asked? (s : Server) (c : ConnectionId) (m : Message) : Option Answer :=
  if (s.complaint? m).isSome then none
  else
    match m.type.kind with
    | .clock => m.time.bind fun _ => s.callbacks.clock
    | .command =>
      match s.commandTarget m with
      | .error _ => none
      | .ok (_, _, p) => if s.applies c m p then p.callbacks.receive.map (·.answer) else none
    | _ => none

/-- Whether the server itself has nothing against a message. -/
def permits (s : Server) (c : ConnectionId) (m : Message) : Bool :=
  (s.complaint? m).isNone &&
    match m.type.kind with
    | .clock => m.time.isSome
    | .command =>
      match s.commandTarget m with
      | .error _ => false
      | .ok (_, _, p) =>
        -- a deactivation needs a selection, and so does an execute by selection
        if m.cause = .deactivation then s.selections.isHeldBy s.now (m.selection c s.now)
        else if m.isSelect then
          p.mode == .selectAndExecute && !s.selections.isTaken s.now (m.selection c s.now)
        else s.applies c m p
    | _ => true

/-- What a message is confirmed with: the answer of the callback asked, or what the server says. -/
def verdict (s : Server) (c : ConnectionId) (m : Message) : Answer :=
  (s.asked? c m).getD (if s.permits c m then .success else .failure)

/-- Whether a message ends with a termination when its verdict is positive: activations of
interrogations and executes by selection do. -/
def concludes (s : Server) (m : Message) : Bool :=
  m.cause == .activation &&
    match m.type.kind with
    | .interrogation | .counters => true
    | .command =>
      match s.commandTarget m with
      | .error _ => false
      | .ok (_, _, p) => p.mode == .selectAndExecute && !m.isSelect
    | _ => false

/-- The confirmation round of a message with a verdict. -/
def confirmationsAs (s : Server) (m : Message) (answer : Answer) : List WireFrame :=
  if answer ≠ .none && m.needsConfirmation then s.copies (m.confirmation (answer == .failure))
  else []

/-- The **confirmation round** of a frame: known codes, an activation or deactivation, and no
callback that wants no confirmation. It is negative when the verdict is a failure. -/
def confirmations (s : Server) (c : ConnectionId) (f : WireFrame) : List WireFrame :=
  match Message.ofFrame f with
  | .error _ => []
  | .ok m =>
    if (m.cause = .activation ∨ m.cause = .deactivation) ∧ s.asked? c m ≠ some .none then
      s.copies { f with
        causeCode := if m.cause = .deactivation then 9 else 7
        negative := s.verdict c m == .failure }
    else []

/-- The **conclusion** of a frame: a single negative mirror when it is rejected, with the code of
the rejection, a termination round when it is carried out and ends with one. -/
def conclusion (s : Server) (c : ConnectionId) (f : WireFrame) : List WireFrame :=
  match s.rejection? f with
  | some why => (f.mirrorFor? why).toList
  | none =>
    match Message.ofFrame f with
    | .error _ => []
    | .ok m =>
      if s.verdict c m = .success ∧ s.concludes m then
        s.copies { f with causeCode := 10, negative := false }
      else []

/-- The events of telling the application of a rejection: one if it has a callback for it. -/
def toldOf (s : Server) (c : ConnectionId) (f : WireFrame) (why : Rejection) : List Event :=
  match s.callbacks.unexpected with
  | none => []
  | some _ => [.rejected c why f]

/-- What the application is told of a frame: its rejection, if there is one. -/
def complaints (s : Server) (c : ConnectionId) (f : WireFrame) : List Event :=
  (s.rejection? f).elim [] (s.toldOf c f)

/-- The events of sending frames back. -/
def sentBack (c : ConnectionId) (fs : List WireFrame) : List Event :=
  fs.map fun g => .sent (.returned c g)

/-- The **protocol** of a frame: what is put out for it. Data comes before the confirmation only
from the receive callback of the point, and after it only for a frame that is not rejected. -/
def protocol (s : Server) (c : ConnectionId) (f : WireFrame) : Script :=
  {w | ∃ early ∈ Script.data, ∃ late ∈ Script.data,
    (early ≠ [] → ∃ m answer, Message.ofFrame f = .ok m ∧ s.asked? c m = some answer) ∧
    (late ≠ [] → s.rejection? f = none) ∧
    w = early ++ sentBack c (s.confirmations c f) ++ late ++ sentBack c (s.conclusion c f) ++
      s.complaints c f}

/-! ## The parts of the protocol -/

open Act

variable {s s' : Server} {inlet : Inlet} {c : ConnectionId} {f : WireFrame} {m : Message}
  {station : StationId} {id : PointId} {p : Point}

/-- Sending a frame back puts it out. -/
theorem says_sendBack (s : Server) (c : ConnectionId) (f : WireFrame) :
    s.Says (s.sendBack c f) (sentBack c [f]) := s.says_handOver (.returned c f)

/-- The copies of a frame are what is sent in reply. -/
theorem says_reply (s : Server) (c : ConnectionId) (f : WireFrame) :
    s.Says (s.reply c f) (sentBack c (s.copies f)) := by
  have hall (keys : List CommonAddress) (u : Server) :
      u.Says (keys.foldl (fun v station => v.sendBack c { f with station }) u)
        (sentBack c (keys.map fun station => { f with station })) := by
    induction keys generalizing u with
    | nil => exact .refl u
    | cons key rest ih => exact (u.says_sendBack c _).trans (ih _)
  rw [reply, copies]
  split
  · exact hall _ s
  · exact s.says_sendBack c f

/-- Copies are made for the stations on the roster. -/
theorem Yields.copies_eq {new : List Entry} (h : s.Yields s' new) (f : WireFrame) :
    s'.copies f = s.copies f := by
  rw [copies, copies, h.roster]

/-- What is put out does not change which copies are made. -/
theorem Says.copies_eq {w : List Event} (h : s.Says s' w) (f : WireFrame) :
    s'.copies f = s.copies f :=
  let ⟨_, hy, _⟩ := h
  hy.copies_eq f

/-- Nor does it change what confirms a message. -/
theorem Yields.confirmationsAs_eq {new : List Entry} (h : s.Yields s' new) (m : Message)
    (answer : Answer) : s'.confirmationsAs m answer = s.confirmationsAs m answer := by
  rw [confirmationsAs, confirmationsAs, h.copies_eq]

/-- The confirmation round is what confirming puts out. -/
theorem says_confirmAs (s : Server) (c : ConnectionId) (m : Message) (answer : Answer) :
    s.Says (s.confirmAs c m answer) (sentBack c (s.confirmationsAs m answer)) := by
  rw [confirmAs, confirmationsAs]
  split
  · exact s.says_reply c _
  · exact .refl s

/-- A verdict confirms nothing exactly when the callback that is asked wants no confirmation. -/
theorem verdict_eq_none_iff : s.verdict c m = .none ↔ s.asked? c m = some .none := by
  rw [verdict]
  cases s.asked? c m with
  | none => simp only [Option.getD_none]; split <;> simp
  | some answer => simp

/-- What confirms a frame is the confirmation round of its message with the verdict on it. -/
theorem confirmations_eq (hf : Message.ofFrame f = .ok m) :
    s.confirmations c f = s.confirmationsAs m (s.verdict c m) := by
  have hcond : (s.verdict c m ≠ .none && m.needsConfirmation) = true ↔
      (m.cause = .activation ∨ m.cause = .deactivation) ∧ s.asked? c m ≠ some .none := by
    rw [Message.needsConfirmation]
    simp [verdict_eq_none_iff, and_comm]
  rw [confirmations, hf, confirmationsAs, Message.confirmation_eq hf]
  simp only [hcond]

/-- An answer without data is foreseen. -/
theorem answer_mem_protocol (s : Server) (c : ConnectionId) (f : WireFrame) :
    sentBack c (s.confirmations c f) ++ sentBack c (s.conclusion c f) ++ s.complaints c f ∈
      s.protocol c f :=
  ⟨[], Script.nil_mem_data, [], Script.nil_mem_data, fun h => absurd rfl h, fun h => absurd rfl h,
    by simp⟩

/-- So is data between confirmation and conclusion of a frame that is carried out. -/
theorem data_mem_protocol (hrej : s.rejection? f = none) {late : List Event}
    (hlate : late ∈ Script.data) :
    sentBack c (s.confirmations c f) ++ late ++ sentBack c (s.conclusion c f) ∈ s.protocol c f :=
  ⟨[], Script.nil_mem_data, late, hlate, fun h => absurd rfl h, fun _ => hrej,
    by rw [complaints, hrej]; simp⟩

/-! ## The frames of an answer -/

/-- Copies of an answer repeat the frame that is answered. -/
theorem repeats_of_mem_copies (s : Server) (f : WireFrame) (causeCode : UInt8) (negative : Bool)
    {g : WireFrame} (hg : g ∈ s.copies { f with causeCode, negative }) : g.Repeats f := by
  rw [copies] at hg
  split at hg
  · rename_i hall
    obtain ⟨station, -, rfl⟩ := List.mem_map.mp hg
    exact f.repeats_with causeCode negative fun hne => absurd hall hne
  · obtain rfl := List.mem_singleton.mp hg
    exact f.repeats_with causeCode negative fun _ => rfl

/-- Every frame of an answer repeats the frame that is answered. -/
theorem repeats_of_mem_answer {g : WireFrame}
    (hg : g ∈ s.confirmations c f ++ s.conclusion c f) : g.Repeats f := by
  rcases List.mem_append.mp hg with hg | hg
  · rw [confirmations] at hg
    split at hg
    · cases hg
    · split at hg
      · exact s.repeats_of_mem_copies f _ _ hg
      · cases hg
  · rw [conclusion] at hg
    split at hg
    · obtain ⟨causeCode, -, rfl⟩ := Option.map_eq_some_iff.mp (Option.mem_toList.mp hg)
      exact f.repeats_with causeCode true fun _ => rfl
    · split at hg
      · cases hg
      · split at hg
        · exact s.repeats_of_mem_copies f _ _ hg
        · cases hg

end Server

end Telecontrol
