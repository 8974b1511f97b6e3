import Telecontrol.Config.Build
import Telecontrol.Config.Load
import Telecontrol.Config.Validity
import Telecontrol.Log.Writer
import Telecontrol.Service.Arguments
import Telecontrol.Service.Error
import Telecontrol.Service.Signal

/-! # Running the service

The service loads its configuration, opens its log, sets up a server and serves until a signal
comes. What it does is a list of lines and how it goes on; the clock and the files are given to it.

Main statements: `Service.begin_of_logSettings?` (without a log there is nothing but a complaint)
and `Service.complaint_of_failed` (a service that fails ends with a complaint). -/

namespace Telecontrol

/-- What the service finds around it. -/
structure Surroundings where
  /-- The clock, in milliseconds since the epoch. -/
  now : Int
  environment : List (String × String)
  /-- What is found at a path. -/
  content : String → FileContent
  /-- Why a directory cannot hold log files, if it cannot. -/
  directoryFault? : String → Option String

/-- A service that is up. -/
structure Service where
  server : Server
  writer : LogWriter

/-- How a service goes on after it has begun. -/
inductive Progress where
  | serving (service : Service)
  /-- It has ended without being up. -/
  | done
  | failed

namespace Service

/-- The name of the service. -/
def name : String := "iecsrv"

/-- The version of the service. -/
def version : String := name ++ " 0.1.0"

/-- How the service is called. -/
def usage : String :=
  "IEC 60870-5-104 server service\n\nUsage: iecsrv [OPTIONS]\n\nOptions:\n" ++
    "  -c, --config <CONFIG>        Configuration file (YAML, TOML or JSON)\n" ++
    "  -l, --log-level <LOG_LEVEL>  Log level filter, overrides the configured level\n" ++
    "      --validate               Validate the configuration and exit\n" ++
    "  -h, --help                   Print help\n" ++
    "  -V, --version                Print version"

/-- A record of the service itself. -/
def info (message : String) : LogRecord where
  level := .info
  target := name
  message

/-- The record of something that a server reports. -/
def recordOf (n : Notice) : LogRecord where
  level := n.level
  target := n.target
  message := n.text

/-- The record of a failure. -/
def failureRecord (e : ServiceError) : LogRecord where
  level := e.category.level
  target := name
  message := name ++ " failed: " ++ e.message
  attributes := [("code", e.code)]

/-- The line with which a failed service ends. -/
def complaint (e : ServiceError) : OutputLine := .text .complaints ("Error: " ++ e.describe)

/-- The lines that a failure is written in. The log file is closed by then. -/
def failureLines (w : LogWriter) (e : ServiceError) : List OutputLine :=
  w.closeFile.write (failureRecord e) ++ [complaint e]

/-- The lines of a journal. -/
def journalLines (w : LogWriter) (entries : List Entry) : List OutputLine :=
  entries.flatMap fun e =>
    match e.event with
    | .notice n => w.write (recordOf n)
    | _ => []

/-- Take the journal of a server as lines. -/
def drain (w : LogWriter) (s : Server) : Server × List OutputLine :=
  let (s, entries) := s.takeJournal
  (s, journalLines w entries)

/-- The error of a service whose configuration cannot be loaded. -/
def setupError (e : SetupError) : ServiceError := .ofServerError (.config (.setup e))

/-- The configuration that the arguments ask for. -/
def configuration (a : Arguments) (w : Surroundings) : Except SetupError ServerConfig := do
  let file := a.config.map fun path => (⟨path, w.content path⟩ : ConfigFile)
  let config ← (ServerConfig.load file w.environment).mapError .config
  return match a.logLevel with
    | some level => { config with logging := config.logging.withLevel level }
    | none => config

/-- Give up a server that could not be set up. -/
def abandon (writer : LogWriter) (server : Server) (e : ServerError) :
    List OutputLine × Progress :=
  -- the log file is still open while the server is given up
  let (_, lines) := drain writer server.shutDown
  (lines ++ failureLines writer (.ofServerError e), .failed)

/-- Set up the server and start it. -/
def serve (config : ServerConfig) (writer : LogWriter) (now : Int) : List OutputLine × Progress :=
  match Server.new config.options (.counting 0 0) now with
  | .error e => (failureLines writer (.ofServerError e), .failed)
  | .ok server =>
    match config.build server with
    | (server, some e) => abandon writer server e
    | (server, none) =>
      match server.start with
      | .error e => abandon writer server e
      | .ok server =>
        let (server, lines) := drain writer server
        let stations := server.plant.roster.size
        let started := info (s!"iecsrv started with {stations} stations over the log transport " ++
          "(configured endpoint " ++ config.bindAddress ++ s!":{config.port.toNat} not bound)")
        (lines ++ writer.write started, .serving ⟨server, writer⟩)

/-- Begin to serve, or check the configuration if that was asked for. -/
def begin (a : Arguments) (w : Surroundings) : List OutputLine × Progress :=
  match configuration a w with
  -- without a log there is nothing to write but the complaint
  | .error e => ([complaint (setupError e)], .failed)
  | .ok config =>
    match LogWriter.ofSettings config.logging w.environment w.directoryFault? with
    | .error e => ([complaint (setupError e)], .failed)
    | .ok writer =>
      let opening := writer.write (LogWriter.opening config.logging)
      match config.fault? with
      | some fault =>
        (opening ++ failureLines writer (.ofServerError (.config fault)), .failed)
      | none =>
        if a.validate then
          let valid := info (s!"Configuration valid: {config.stations.length} stations, " ++
            s!"{config.pointCount} points")
          (opening ++ writer.write valid, .done)
        else
          let (lines, progress) := serve config writer w.now
          (opening ++ lines, progress)

/-- End a service that is up. -/
def finish (s : Service) (signal : ShutdownSignal) : List OutputLine :=
  let received := info ("Received " ++ signal.name ++ ", shutting down")
  let (_, lines) := drain s.writer s.server.stop.shutDown
  s.writer.write received ++ lines ++ s.writer.write (info (name ++ " stopped"))

/-- The settings of the log that a service writes, if it comes to writing one. -/
def logSettings? (a : Arguments) (w : Surroundings) : Option LogSettings :=
  match configuration a w with
  | .error _ => none
  | .ok config =>
    match LogWriter.ofSettings config.logging w.environment w.directoryFault? with
    | .error _ => none
    | .ok writer => some writer.settings

/-- The exit code of a service that is not up. -/
def exitCode : Progress → UInt32
  | .failed => 1
  | _ => 0

/-- The exit code after a wrong command line. -/
def usageCode : UInt32 := 2

/-- A service that does not come to writing a log does nothing but complain. -/
theorem begin_of_logSettings? {a : Arguments} {w : Surroundings} (h : logSettings? a w = none) :
    ∃ e, begin a w = ([complaint e], .failed) := by
  rw [logSettings?] at h
  rw [begin]
  split at h
  · exact ⟨_, rfl⟩
  · split at h
    · exact ⟨_, rfl⟩
    · cases h

/-- The last line of a server that cannot be set up is a complaint. -/
theorem complaint_of_serve {config : ServerConfig} {writer : LogWriter} {now : Int}
    {lines : List OutputLine} (h : serve config writer now = (lines, .failed)) :
    ∃ before e, lines = before ++ [complaint e] := by
  rw [serve] at h
  split at h
  · obtain ⟨rfl, -⟩ := Prod.mk.inj h
    exact ⟨_, _, rfl⟩
  · split at h
    · obtain ⟨rfl, -⟩ := Prod.mk.inj h
      exact ⟨_, _, (List.append_assoc ..).symm⟩
    · split at h
      · obtain ⟨rfl, -⟩ := Prod.mk.inj h
        exact ⟨_, _, (List.append_assoc ..).symm⟩
      · cases (Prod.mk.inj h).2

/-- A service that fails ends with a complaint, whatever was logged before. -/
theorem complaint_of_failed {a : Arguments} {w : Surroundings} {lines : List OutputLine}
    (h : begin a w = (lines, .failed)) : ∃ before e, lines = before ++ [complaint e] := by
  rw [begin] at h
  split at h
  · obtain ⟨rfl, -⟩ := Prod.mk.inj h
    exact ⟨[], _, rfl⟩
  split at h
  · obtain ⟨rfl, -⟩ := Prod.mk.inj h
    exact ⟨[], _, rfl⟩
  dsimp only at h
  split at h
  · obtain ⟨rfl, -⟩ := Prod.mk.inj h
    exact ⟨_, _, (List.append_assoc ..).symm⟩
  split at h
  · cases (Prod.mk.inj h).2
  · obtain ⟨rfl, hprogress⟩ := Prod.mk.inj h
    obtain ⟨before, e, hlines⟩ := complaint_of_serve (Prod.ext rfl hprogress)
    exact ⟨_, e, hlines ▸ (List.append_assoc ..).symm⟩

end Service

end Telecontrol
