/-! # Settings of the log

Where and how log lines are written. -/

namespace Telecontrol

/-- How a log line is laid out. -/
inductive LogFormat where
  /-- The level in brackets, the target, a colon and the message. -/
  | bracketed
  | compact
  | pretty
  | json
  deriving DecidableEq, Repr

namespace LogFormat

/-- Every format. -/
def all : List LogFormat := [.bracketed, .compact, .pretty, .json]

/-- The name of a format. -/
def name : LogFormat → String
  | .bracketed => "bracketed"
  | .compact => "compact"
  | .pretty => "pretty"
  | .json => "json"

/-- The format of a name. -/
def ofName? (s : String) : Option LogFormat := all.find? fun f => f.name == s

end LogFormat

/-- The **settings** of a log. -/
structure LogSettings where
  /-- Which lines are written: a level, or directives for single targets. -/
  level : String := "info"
  format : LogFormat := .bracketed
  /-- Whether lines on the console are coloured. -/
  ansi : Bool := true
  /-- The directory of the log files; without one there are only lines on the console. -/
  directory : Option String := none
  /-- What the names of the log files begin with. -/
  fileStem : String := "service"
  deriving DecidableEq, Repr

/-- The settings with another level. -/
def LogSettings.withLevel (s : LogSettings) (level : String) : LogSettings := { s with level }

end Telecontrol
