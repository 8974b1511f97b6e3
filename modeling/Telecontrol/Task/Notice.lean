import Telecontrol.Log.Level

/-! # Notices of an executor

What an executor reports about itself in the log. -/

namespace Telecontrol

/-- A report of an executor. -/
inductive TaskNotice where
  | started
  | stopped
  /-- A task came after the executor had stopped. -/
  | rejected
  /-- A task started long after its due time; `seq` is its number. -/
  | late (ms seq : Nat)
  /-- The body of a task gave up with a message. -/
  | panicked (message : String)
  deriving DecidableEq, Repr

namespace TaskNotice

/-- A start that is later than this, in milliseconds, is reported. -/
def latenessThreshold : Nat := 100

/-- The level of a report. -/
def level : TaskNotice → Level
  | .started | .stopped => .info
  | .rejected | .late .. => .warn
  | .panicked _ => .error

/-- A report in words. -/
def text : TaskNotice → String
  | .started => "Task executor started"
  | .stopped => "Task executor stopped"
  | .rejected => "Task rejected: executor stopped"
  | .late ms seq => s!"Task started {ms}ms after its due time (seq={seq})"
  | .panicked message => "Task panicked: " ++ message

end TaskNotice

end Telecontrol
