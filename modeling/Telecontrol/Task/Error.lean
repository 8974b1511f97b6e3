/-! # Task errors

What can go wrong when work is handed to an executor. -/

namespace Telecontrol

/-- The shortest interval of periodic work, in milliseconds. -/
def minInterval : Nat := 50

/-- Why work was not accepted. -/
inductive TaskError where
  /-- The interval of periodic work is below the minimum. -/
  | intervalTooShort (interval minimum : Nat)
  /-- The executor does not run any more. -/
  | stopped
  /-- The worker could not be started, for the reason the system gave. -/
  | spawn (reason : String)
  deriving DecidableEq, Repr

namespace TaskError

/-- An error in words. -/
def message : TaskError → String
  | .intervalTooShort interval minimum =>
    s!"Interval out of range: {interval}ms (minimum {minimum}ms)"
  | .stopped => "Task executor stopped"
  | .spawn reason => "Failed to spawn worker thread: " ++ reason

end TaskError

end Telecontrol
