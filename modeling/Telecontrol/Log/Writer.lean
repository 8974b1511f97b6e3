import Telecontrol.Error
import Telecontrol.Log.Filter

/-! # Writing the log

A **writer** sends the records that its filter admits to the console, and to a log file as long as
that is open. The level of the settings gives way to the one of the environment.

Main statement: `LogWriter.write_eq_nil_iff`: a record is written nowhere exactly when the filter
does not admit it. -/

namespace Telecontrol

/-- Where a line of a service goes to. -/
inductive Channel where
  | console
  | logFile
  | complaints
  deriving DecidableEq, Repr

/-- A line that a service writes. -/
inductive OutputLine where
  /-- A record of the log; its line begins with the time. -/
  | record (channel : Channel) (format : LogFormat) (ansi : Bool) (record : LogRecord)
  /-- Anything else. -/
  | text (channel : Channel) (text : String)
  deriving DecidableEq, Repr

namespace OutputLine

/-- Where a line goes to. -/
def channel : OutputLine → Channel
  | .record c .. => c
  | .text c _ => c

/-- A line, given the time at which it is written. -/
def render (time : String) : OutputLine → String
  | .record _ format ansi r => r.line format ansi time
  | .text _ t => t

end OutputLine

/-- A **writer** of the log. -/
structure LogWriter where
  settings : LogSettings
  filter : LogFilter
  /-- Whether records go to a log file. -/
  hasFile : Bool
  deriving DecidableEq, Repr

namespace LogWriter

/-- The variable whose value, unless it is empty, takes the place of the configured level. -/
def levelVariable : String := "RUST_LOG"

/-- The text of the filter: the environment wins over the settings. -/
def filterText (settings : LogSettings) (environment : List (String × String)) : String :=
  match environment.lookup levelVariable with
  | none | some "" => settings.level
  | some level => level

/-- A writer for settings. The environment says which log directories cannot be used, and why. -/
def ofSettings (settings : LogSettings) (environment : List (String × String))
    (directoryFault? : String → Option String) : Except SetupError LogWriter :=
  let text := filterText settings environment
  match LogFilter.ofText text with
  | .error fault =>
    .error (.logging ("Invalid log level '" ++ text ++ "': " ++ fault.text))
  | .ok filter =>
    -- the filter is checked before the directory is made
    match settings.directory.bind directoryFault? with
    | some reason => .error (.io reason)
    | none => .ok { settings, filter, hasFile := settings.directory.isSome }

/-- The name of the log file of a day. -/
def fileName (settings : LogSettings) (day : String) : String :=
  settings.fileStem ++ ".log." ++ day

/-- The layout of lines in a file: objects if the format says so, and brackets otherwise. -/
def fileFormat (settings : LogSettings) : LogFormat :=
  if settings.format = .json then .json else .bracketed

/-- The lines that a record is written in. -/
def write (w : LogWriter) (r : LogRecord) : List OutputLine :=
  if w.filter.admits r then
    .record .console w.settings.format w.settings.ansi r ::
      (if w.hasFile then [.record .logFile (fileFormat w.settings) false r] else [])
  else []

/-- A record is written nowhere exactly when the filter does not admit it. -/
theorem write_eq_nil_iff (w : LogWriter) (r : LogRecord) :
    w.write r = [] ↔ w.filter.admits r = false := by
  unfold write
  split <;> simp_all

/-- The writer after the file was closed. -/
def closeFile (w : LogWriter) : LogWriter := { w with hasFile := false }

/-- The first record of a writer: where the log goes to. -/
def opening (settings : LogSettings) : LogRecord where
  level := if settings.directory.isSome then .info else .debug
  target := "common::logging"
  message := match settings.directory with
    | some directory => "Logging: " ++ settings.fileStem ++ " @ " ++ Quoted.text directory
    | none => "Logging: console only"

end LogWriter

end Telecontrol
