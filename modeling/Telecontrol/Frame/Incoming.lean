import Telecontrol.Frame.Cause
import Telecontrol.Frame.Object
import Telecontrol.Frame.TypeId

/-! # Incoming frames

A frame arrives with the codes its sender wrote: a **wire frame**. It keeps unknown codes, so that
it can be sent back unchanged. A wire frame whose type and cause are known is a **message**.

`WireFrame.mirror`, `Message.confirmation` and `Message.termination` are the three answers that
repeat the frame; each changes only the cause and the negative flag. -/

namespace Telecontrol

/-- A frame **as received**. -/
structure WireFrame where
  typeCode : UInt8
  causeCode : UInt8
  station : CommonAddress
  originator : Originator := 0
  test : Bool := false
  negative : Bool := false
  sequence : Bool := false
  objects : List InformationObject := []
  deriving DecidableEq, Repr, Inhabited

/-- Why a frame was rejected. -/
inductive Rejection where
  | invalidTypeId
  | mismatchedTypeId
  | unknownTypeId
  | invalidCause
  | unknownCause
  | unknownStation
  | unknownObject
  | unimplementedGroup
  deriving DecidableEq, Repr

namespace Rejection

/-- Every reason. -/
def all : List Rejection :=
  [.invalidTypeId, .mismatchedTypeId, .unknownTypeId, .invalidCause, .unknownCause,
    .unknownStation, .unknownObject, .unimplementedGroup]

/-- The short name of a reason. -/
def name : Rejection → String
  | .invalidTypeId => "InvalidTypeId"
  | .mismatchedTypeId => "MismatchedTypeId"
  | .unknownTypeId => "UnknownTypeId"
  | .invalidCause => "InvalidCot"
  | .unknownCause => "UnknownCot"
  | .unknownStation => "UnknownCa"
  | .unknownObject => "UnknownIoa"
  | .unimplementedGroup => "UnimplementedGroup"

/-- A reason in words. -/
def text : Rejection → String
  | .invalidTypeId => "invalid type id"
  | .mismatchedTypeId => "mismatched type id"
  | .unknownTypeId => "unknown type id"
  | .invalidCause => "invalid cause of transmission"
  | .unknownCause => "unknown cause of transmission"
  | .unknownStation => "unknown common address"
  | .unknownObject => "unknown information object address"
  | .unimplementedGroup => "unimplemented group"

/-- The cause of the negative answer to a rejected frame; an unimplemented group gets none. -/
def answerCause : Rejection → Option Cause
  | .invalidTypeId | .mismatchedTypeId | .unknownTypeId => some .unknownTypeId
  | .invalidCause | .unknownCause => some .unknownCause
  | .unknownStation => some .unknownCommonAddress
  | .unknownObject => some .unknownObjectAddress
  | .unimplementedGroup => none

end Rejection

namespace WireFrame

/-- The frame with another cause and negative flag: what every answer to it looks like. -/
def answer (f : WireFrame) (cause : Cause) (negative : Bool) : WireFrame :=
  { f with causeCode := cause.code, negative }

/-- The frame sent back as a negative answer. -/
def mirror (f : WireFrame) (cause : Cause) : WireFrame := f.answer cause true

end WireFrame

/-- A **message**: a wire frame whose type and cause are known. -/
structure Message where
  frame : WireFrame
  type : TypeId
  cause : Cause
  deriving DecidableEq, Repr

namespace Message

/-- The message of a wire frame; an unknown type is noticed before an unknown cause. -/
def ofFrame (f : WireFrame) : Except Rejection Message :=
  match TypeId.ofCode? f.typeCode with
  | none => .error .unknownTypeId
  | some type =>
    match Cause.ofCode? f.causeCode with
    | none => .error .unknownCause
    | some cause => .ok ⟨f, type, cause⟩

/-- The common address a message is sent to. -/
def station (m : Message) : CommonAddress := m.frame.station

/-- The originator of a message. -/
def originator (m : Message) : Originator := m.frame.originator

/-- The first information object, the only one a command looks at. -/
def first? (m : Message) : Option InformationObject := m.frame.objects.head?

/-- The address of the first object, zero when there is none. -/
def address (m : Message) : ObjectAddress := (m.first?.map (·.address)).getD 0

/-- The value of the first object, zero when there is none. -/
def value (m : Message) : Value := (m.first?.map (·.value)).getD .zero

/-- The qualifier of the first object, zero when there is none. -/
def qualifier (m : Message) : UInt8 := (m.first?.map (·.qualifier)).getD 0

/-- The time tag of the first object. -/
def time (m : Message) : Option Int := m.first?.bind (·.time)

/-- Whether the message is a select: a selectable command with the select bit. -/
def isSelect (m : Message) : Bool := m.type.isSelectable && m.first?.any (·.select)

/-- Activations and deactivations are confirmed. -/
def needsConfirmation (m : Message) : Bool :=
  m.cause == .activation || m.cause == .deactivation

/-- Whether the cause is allowed for the type in control direction. -/
def hasValidCause (m : Message) : Bool :=
  if m.type.isCommand then m.cause == .activation || m.cause == .deactivation
  else match m.type with
    | .C_IC_NA_1 => m.cause == .activation || m.cause == .deactivation
    | .C_CI_NA_1 | .C_CS_NA_1 | .C_TS_TA_1 => m.cause == .activation
    | .C_RD_NA_1 => m.cause == .request
    | _ => false

/-- The confirmation of a message, positive or negative. -/
def confirmation (m : Message) (negative : Bool) : WireFrame :=
  m.frame.answer
    (if m.cause = .deactivation then .deactivationConfirmation else .activationConfirmation)
    negative

/-- The termination that ends an activation. -/
def termination (m : Message) : WireFrame := m.frame.answer .activationTermination false

/-! ## Messages and their frames -/

/-- A wire frame is a message exactly when both its codes are known. -/
theorem ofFrame_eq_ok_iff (f : WireFrame) (m : Message) :
    ofFrame f = .ok m ↔
      m.frame = f ∧ f.typeCode = m.type.code ∧ f.causeCode = m.cause.code := by
  constructor
  · intro h
    unfold ofFrame at h
    split at h
    · cases h
    · rename_i t ht
      split at h
      · cases h
      · rename_i c hc
        obtain rfl := Except.ok.inj h
        exact ⟨rfl, (TypeId.code_of_ofCode? ht).symm, (Cause.code_of_ofCode? hc).symm⟩
  · rintro ⟨rfl, ht, hc⟩
    simp [ofFrame, ht, hc]

/-- A message has the frame from which it was read. -/
theorem frame_of_ofFrame {f : WireFrame} {m : Message} (h : ofFrame f = .ok m) : m.frame = f :=
  ((ofFrame_eq_ok_iff f m).mp h).1

end Message

end Telecontrol
