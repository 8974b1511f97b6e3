/-! # Causes of transmission

The **cause of transmission** of a frame says why it is sent. Main statements: `Cause.ofCode?_code`
and `Cause.code_of_ofCode?`, by which codes and causes name each other one to one. -/

namespace Telecontrol

/-- The **causes of transmission** of a controlled station. -/
inductive Cause where
  | periodic
  | background
  | spontaneous
  | initialized
  | request
  | activation
  | activationConfirmation
  | deactivation
  | deactivationConfirmation
  | activationTermination
  /-- Return information caused by a remote command. -/
  | returnInfoRemote
  /-- Return information caused by a local command. -/
  | returnInfoLocal
  | fileTransfer
  /-- Answer to a station interrogation. -/
  | interrogatedByStation
  /-- Answer to a general counter request. -/
  | requestedByGeneralCounter
  | unknownTypeId
  | unknownCause
  | unknownCommonAddress
  | unknownObjectAddress
  deriving DecidableEq, Repr

namespace Cause

/-- Every cause, in ascending order of its code. -/
def all : List Cause :=
  [.periodic, .background, .spontaneous, .initialized, .request, .activation,
   .activationConfirmation, .deactivation, .deactivationConfirmation, .activationTermination,
   .returnInfoRemote, .returnInfoLocal, .fileTransfer, .interrogatedByStation,
   .requestedByGeneralCounter, .unknownTypeId, .unknownCause, .unknownCommonAddress,
   .unknownObjectAddress]

/-- The code of a cause in a frame. -/
def code : Cause → UInt8
  | .periodic => 1
  | .background => 2
  | .spontaneous => 3
  | .initialized => 4
  | .request => 5
  | .activation => 6
  | .activationConfirmation => 7
  | .deactivation => 8
  | .deactivationConfirmation => 9
  | .activationTermination => 10
  | .returnInfoRemote => 11
  | .returnInfoLocal => 12
  | .fileTransfer => 13
  | .interrogatedByStation => 20
  | .requestedByGeneralCounter => 37
  | .unknownTypeId => 44
  | .unknownCause => 45
  | .unknownCommonAddress => 46
  | .unknownObjectAddress => 47

/-- The name under which a cause is shown. -/
def name : Cause → String
  | .periodic => "Periodic"
  | .background => "Background"
  | .spontaneous => "Spontaneous"
  | .initialized => "Initialized"
  | .request => "Request"
  | .activation => "Activation"
  | .activationConfirmation => "ActivationConfirmation"
  | .deactivation => "Deactivation"
  | .deactivationConfirmation => "DeactivationConfirmation"
  | .activationTermination => "ActivationTermination"
  | .returnInfoRemote => "ReturnInfoRemote"
  | .returnInfoLocal => "ReturnInfoLocal"
  | .fileTransfer => "FileTransfer"
  | .interrogatedByStation => "InterrogatedByStation"
  | .requestedByGeneralCounter => "RequestedByGeneralCounter"
  | .unknownTypeId => "UnknownTypeId"
  | .unknownCause => "UnknownCauseOfTransmission"
  | .unknownCommonAddress => "UnknownCommonAddress"
  | .unknownObjectAddress => "UnknownInformationObjectAddress"

/-- A cause as it is shown: its name with its code in brackets. -/
def text (c : Cause) : String := c.name ++ "(" ++ toString c.code.toNat ++ ")"

/-- The cause of a code, if the code is in use. -/
def ofCode? (c : UInt8) : Option Cause := all.find? fun k => k.code == c

/-- Low priority: frames of these causes wait in the queue for every active connection. -/
def isLowPriority : Cause → Bool
  | .periodic | .spontaneous => true
  | _ => false

/-- The list of causes has every cause. -/
theorem mem_all (c : Cause) : c ∈ all := by cases c <;> decide

/-- No two causes have one code. -/
theorem code_injective {a b : Cause} (h : a.code = b.code) : a = b := by
  have key : ∀ a ∈ all, ∀ b ∈ all, a.code = b.code → a = b := by decide
  exact key a (mem_all a) b (mem_all b) h

/-- A cause is found by its code. -/
@[simp] theorem ofCode?_code (c : Cause) : ofCode? c.code = some c := by
  cases c <;> rfl

/-- Whatever a code finds has that code. -/
theorem code_of_ofCode? {n : UInt8} {c : Cause} (h : ofCode? n = some c) : c.code = n := by
  simpa using List.find?_some h

end Cause

end Telecontrol
