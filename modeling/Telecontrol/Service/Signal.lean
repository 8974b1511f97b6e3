/-! # Signals

The signals on which a service shuts down. -/

namespace Telecontrol

/-- A signal to shut down. -/
inductive ShutdownSignal where
  | interrupt
  | terminate
  deriving DecidableEq, Repr

namespace ShutdownSignal

/-- Every signal. -/
def all : List ShutdownSignal := [.interrupt, .terminate]

/-- The name of a signal. -/
def name : ShutdownSignal → String
  | .interrupt => "SIGINT"
  | .terminate => "SIGTERM"

end ShutdownSignal

end Telecontrol
