import Std.Async.Signal
import Std.Time
import Telecontrol.Service.Run

/-! # The program

The outer layer of the service: it reads the command line, the environment, the configuration file
and the clock, and writes the lines that the service asks for. -/

namespace Telecontrol.Program

/-- The environment of the process, as the system lists it. -/
def readEnvironment : IO (List (String × String)) := do
  let text ← IO.FS.readFile "/proc/self/environ"
  return (text.splitOn "\x00").filterMap fun entry =>
    match entry.splitOn "=" with
    | name :: value :: rest => some (name, "=".intercalate (value :: rest))
    | _ => none

/-- What is found at a path. -/
def readContent (path : String) : IO FileContent := do
  match ← (IO.FS.Handle.mk path .read).toBaseIO with
  | .error (.noFileOrDirectory ..) | .error (.inappropriateType ..) => return .missing
  | .error _ => return .unreadable
  | .ok file =>
    match ← file.readToEnd.toBaseIO with
    | .ok text => return .text text
    | .error _ => return .unreadable

/-- The words of the system for a fault, with its number. -/
def faultText : IO.Error → String
  | .alreadyExists _ code words | .noFileOrDirectory _ code words | .permissionDenied _ code words
  | .inappropriateType _ code words | .invalidArgument _ code words
  | .resourceExhausted _ code words => words ++ " (os error " ++ toString code ++ ")"
  | e => toString e

/-- Make a directory for log files. The answer is the reason when that is impossible. -/
def makeDirectory (path : String) : IO (Option String) := do
  try
    IO.FS.createDirAll path
    return none
  catch e =>
    return some (faultText e)

/-- The present time: its day, and the whole of it. -/
def presentTime : IO (String × String) := do
  let now := Std.Time.DateTime.ofTimestampWithZone (← Std.Time.Timestamp.now) .UTC
  return (now.format "uuuu-MM-dd", now.format "uuuu-MM-dd'T'HH:mm:ss.SSSSSS'Z'")

/-- The clock in milliseconds since the epoch. -/
def presentMilliseconds : IO Int := do
  return (← Std.Time.Timestamp.now).toMillisecondsSinceUnixEpoch.val

/-- Write a line to where it belongs. -/
def writeLine (log : Option LogSettings) (l : OutputLine) : IO Unit := do
  let (day, time) ← presentTime
  let text := l.render time
  match l.channel, log with
  | .console, _ => IO.println text
  | .complaints, _ => IO.eprintln text
  | .logFile, some settings =>
    match settings.directory with
    | some directory =>
      let file ← IO.FS.Handle.mk (directory ++ "/" ++ LogWriter.fileName settings day) .append
      file.putStrLn text
    | none => return
  | .logFile, none => return

/-- Wait for a signal to shut down. -/
def waitForSignal : IO ShutdownSignal := do
  let interrupt ← (← Std.Async.Signal.Waiter.mk .sigint false).wait
  let terminate ← (← Std.Async.Signal.Waiter.mk .sigterm false).wait
  let first ← IO.waitAny
    [interrupt.map fun _ => ShutdownSignal.interrupt, terminate.map fun _ => .terminate]
  match first with
  | .ok signal => return signal
  | .error _ => return .interrupt

/-- Serve as the arguments say. -/
def serve (a : Arguments) (environment : List (String × String)) : IO UInt32 := do
  let content ← match a.config with
    | some path => readContent path
    | none => pure .missing
  let now ← presentMilliseconds
  let surroundings : Surroundings := {
    now
    environment
    content := fun _ => content
    directoryFault? := fun _ => none }
  let log := Service.logSettings? a surroundings
  let fault ← match log.bind (·.directory) with
    -- the directory is made before the service begins, which only asks whether that failed
    | some directory => makeDirectory directory
    | none => pure none
  let surroundings := { surroundings with directoryFault? := fun _ => fault }
  let (lines, progress) := Service.begin a surroundings
  lines.forM (writeLine log)
  match progress with
  | .serving service =>
    let signal ← waitForSignal
    (service.finish signal).forM (writeLine log)
    return 0
  | ended => return Service.exitCode ended

end Telecontrol.Program

open Telecontrol in
/-- The service. -/
def main (words : List String) : IO UInt32 := do
  let environment ← Program.readEnvironment
  match Invocation.ofWords words environment with
  | .error fault =>
    IO.eprintln ("error: " ++ fault.text)
    return Service.usageCode
  | .ok .version =>
    IO.println Service.version
    return 0
  | .ok .help =>
    IO.println Service.usage
    return 0
  | .ok (.serve a) => Program.serve a environment
