import Telecontrol.Config.Basic
import Telecontrol.Document.Basic

/-! # Configurations as documents

A configuration is read from a document and written as one. Keys that a document does not have keep
their defaults; keys that nobody knows are ignored. A record may also be a list of its fields in
their order.

Main statements: `ServerConfig.ofDocument?_document` (a configuration is read back as it was
written) and `Document.natural?_eq_some_iff` (which numbers a setting takes). -/

namespace Telecontrol

/-! ## Plain values -/

namespace Document

/-- A whole number from zero up to a bound. -/
def natural? (bound : Nat) : Document → Option Nat
  | .whole n => if 0 ≤ n ∧ n.toNat ≤ bound then some n.toNat else none
  | _ => none

/-- Neither fractions nor negative numbers are taken, nor what exceeds the bound. -/
theorem natural?_eq_some_iff (bound n : Nat) (d : Document) :
    d.natural? bound = some n ↔ d = .whole n ∧ n ≤ bound := by
  cases d <;> simp [natural?]
  omega

/-- A truth value. -/
def bool? : Document → Option Bool
  | .bool b => some b
  | _ => none

/-- A text. -/
def text? : Document → Option String
  | .text s => some s
  | _ => none

/-- A value that may be null. -/
def nullable? {α : Type} (read : Document → Option α) : Document → Option (Option α)
  | .null => some none
  | d => (read d).map some

/-- A list of values. -/
def listOf? {α : Type} (read : Document → Option α) : Document → Option (List α)
  | .list items => items.mapM read
  | _ => none

/-- The least key of a map with its value. -/
def least? : Fields → Option (String × Document)
  | [] => none
  | e :: rest =>
    match least? rest with
    | none => some e
    | some e' => if e'.1 < e.1 then some e' else some e

/-- One of several names: a text, or a map that has a name as its least key with nothing under it.
-/
def named? {α : Type} (ofName? : String → Option α) : Document → Option α
  | .text s => ofName? s
  | .map fields =>
    match least? fields with
    | some (s, .null) => ofName? s
    | _ => none
  | _ => none

/-- The fields of a record: a map, or a list of the values of known keys. -/
def record? (keys : List String) : Document → Option Fields
  | .map fields => some fields
  | .list items => some (keys.zip items)
  | _ => none

/-- A field that must be there. -/
def required? {α : Type} (key : String) (read : Document → Option α) (fields : Fields) : Option α :=
  (lookup key fields).bind read

/-- A field that has a default. -/
def optional? {α : Type} (key : String) (read : Document → Option α) (default : α)
    (fields : Fields) : Option α :=
  match lookup key fields with
  | none => some default
  | some d => read d

/-- The first entry of a key counts for a field that must be there. -/
@[simp] theorem required?_cons {α : Type} (key k : String) (read : Document → Option α)
    (d : Document) (rest : Fields) :
    required? key read ((k, d) :: rest) = if key = k then read d else required? key read rest := by
  by_cases h : key = k <;> simp [required?, lookup, h]

/-- The first entry of a key counts for a field that has a default. -/
@[simp] theorem optional?_cons {α : Type} (key k : String) (read : Document → Option α)
    (default : α) (d : Document) (rest : Fields) :
    optional? key read default ((k, d) :: rest) =
      if key = k then read d else optional? key read default rest := by
  by_cases h : key = k <;> simp [optional?, lookup, h]

/-- A name by itself is read as a name. -/
@[simp] theorem named?_text {α : Type} (ofName? : String → Option α) (s : String) :
    named? ofName? (.text s) = ofName? s := rfl

/-- The absence of a value is read as none. -/
@[simp] theorem nullable?_null {α : Type} (read : Document → Option α) :
    nullable? read .null = some none := rfl

/-- A text that is there is read as one. -/
@[simp] theorem nullable?_text {α : Type} (read : Document → Option α) (s : String) :
    nullable? read (.text s) = (read (.text s)).map some := rfl

/-- A number that is there is read as one. -/
@[simp] theorem nullable?_whole {α : Type} (read : Document → Option α) (n : Int) :
    nullable? read (.whole n) = (read (.whole n)).map some := rfl

/-- An address of a station. -/
def uint16? (d : Document) : Option UInt16 := (d.natural? 0xFFFF).map UInt16.ofNat

/-- An address of an object. -/
def uint32? (d : Document) : Option UInt32 := (d.natural? 0xFFFFFFFF).map UInt32.ofNat

/-- An interval, or a count. -/
def uint64? (d : Document) : Option UInt64 := (d.natural? 0xFFFFFFFFFFFFFFFF).map UInt64.ofNat

/-- A number of 16 bits is read back. -/
@[simp] theorem uint16?_whole (n : UInt16) : uint16? (.whole n.toNat) = some n := by
  have : n.toNat ≤ 0xFFFF := Nat.le_of_lt_succ n.toNat_lt
  simp [uint16?, natural?, this]

/-- A number of 32 bits is read back. -/
@[simp] theorem uint32?_whole (n : UInt32) : uint32? (.whole n.toNat) = some n := by
  have : n.toNat ≤ 0xFFFFFFFF := Nat.le_of_lt_succ n.toNat_lt
  simp [uint32?, natural?, this]

/-- A number of 64 bits is read back. -/
@[simp] theorem uint64?_whole (n : UInt64) : uint64? (.whole n.toNat) = some n := by
  have : n.toNat ≤ 0xFFFFFFFFFFFFFFFF := Nat.le_of_lt_succ n.toNat_lt
  simp [uint64?, natural?, this]

end Document

open Document

/-! ## Settings of the log -/

namespace LogSettings

/-- The keys of the settings in their order. -/
def keys : List String := ["level", "format", "ansi", "dir", "file_prefix"]

/-- Settings as a document. -/
def document (s : LogSettings) : Document :=
  .map [("level", .text s.level), ("format", .text s.format.name), ("ansi", .bool s.ansi),
    ("dir", s.directory.elim .null .text), ("file_prefix", .text s.fileStem)]

/-- Read settings. -/
def ofDocument? (d : Document) : Option LogSettings := do
  let fields ← d.record? keys
  -- a section that is written has the general defaults, not those of the service
  let standard : LogSettings := {}
  let level ← optional? "level" text? standard.level fields
  let format ← optional? "format" (named? LogFormat.ofName?) standard.format fields
  let ansi ← optional? "ansi" bool? standard.ansi fields
  let directory ← optional? "dir" (nullable? text?) standard.directory fields
  let fileStem ← optional? "file_prefix" text? standard.fileStem fields
  return { level, format, ansi, directory, fileStem }

end LogSettings

/-- A format is read back from its name. -/
@[simp] theorem LogFormat.ofName?_name (f : LogFormat) : ofName? f.name = some f := by
  cases f <;> decide

/-- Settings of the log are read back as they were written. -/
@[simp] theorem LogSettings.ofDocument?_document (s : LogSettings) :
    ofDocument? s.document = some s := by
  obtain ⟨level, format, ansi, directory, fileStem⟩ := s
  cases directory <;>
    simp only [ofDocument?, record?, document, Option.elim_none, Option.elim_some, optional?_cons,
      text?, named?_text, bool?, nullable?_null, nullable?_text, Option.pure_def,
      Option.bind_eq_bind, Option.bind_some, reduceIte, String.reduceEq, LogFormat.ofName?_name,
      Option.map_some]

/-! ## Points and stations -/

/-- The name of a command mode in a configuration. -/
def CommandMode.key : CommandMode → String
  | .direct => "direct"
  | .selectAndExecute => "select_and_execute"

/-- The command mode of a name in a configuration. -/
def CommandMode.ofKey? (s : String) : Option CommandMode :=
  [CommandMode.direct, .selectAndExecute].find? fun m => m.key == s

/-- A command mode is read back from its name. -/
@[simp] theorem CommandMode.ofKey?_key (m : CommandMode) : ofKey? m.key = some m := by
  cases m <;> decide

namespace PointConfig

/-- The keys of a point in their order. -/
def keys : List String :=
  ["ioa", "type_id", "report_ms", "timer_ms", "command_mode", "related_ioa", "related_auto_return"]

/-- A point as a document. -/
def document (c : PointConfig) : Document :=
  .map [("ioa", .whole c.address.toNat), ("type_id", .text c.type.name),
    ("report_ms", .whole c.reportInterval.toNat), ("timer_ms", .whole c.timerInterval.toNat),
    ("command_mode", .text c.mode.key),
    ("related_ioa", c.related.elim .null fun a => .whole a.toNat),
    ("related_auto_return", .bool c.autoReturn)]

/-- Read a point. -/
def ofDocument? (d : Document) : Option PointConfig := do
  let fields ← d.record? keys
  let address ← required? "ioa" uint32? fields
  let type ← required? "type_id" (named? TypeId.ofName?) fields
  let reportInterval ← optional? "report_ms" uint64? 0 fields
  let timerInterval ← optional? "timer_ms" uint64? 0 fields
  let mode ← optional? "command_mode" (named? CommandMode.ofKey?) .direct fields
  let related ← optional? "related_ioa" (nullable? uint32?) none fields
  let autoReturn ← optional? "related_auto_return" bool? false fields
  return { address, type, reportInterval, timerInterval, mode, related, autoReturn }

end PointConfig

/-- A point is read back as it was written. -/
@[simp] theorem PointConfig.ofDocument?_document (c : PointConfig) :
    ofDocument? c.document = some c := by
  obtain ⟨address, type, report, timer, mode, related, autoReturn⟩ := c
  cases related <;>
    simp only [ofDocument?, record?, document, Option.elim_none, Option.elim_some, required?_cons,
      optional?_cons, named?_text, nullable?_null, nullable?_whole, bool?, Option.pure_def,
      Option.bind_eq_bind, Option.bind_some, reduceIte, uint32?_whole, String.reduceEq,
      TypeId.ofName?_name, uint64?_whole, CommandMode.ofKey?_key, Option.map_some]

namespace StationConfig

/-- The keys of a station in their order. -/
def keys : List String := ["common_address", "points"]

/-- A station as a document. -/
def document (c : StationConfig) : Document :=
  .map [("common_address", .whole c.address.toNat),
    ("points", .list (c.points.map PointConfig.document))]

/-- Read a station. -/
def ofDocument? (d : Document) : Option StationConfig := do
  let fields ← d.record? keys
  let address ← required? "common_address" uint16? fields
  let points ← optional? "points" (listOf? PointConfig.ofDocument?) [] fields
  return { address, points }

end StationConfig

/-- Values that are read back as they were written are so in a list. -/
theorem Document.mapM_map_eq_some {α : Type} {read : Document → Option α} {write : α → Document}
    (h : ∀ a, read (write a) = some a) (as : List α) : (as.map write).mapM read = some as := by
  induction as with
  | nil => rfl
  | cons a as ih => simp [h, ih]

/-- A station is read back as it was written, with its points. -/
@[simp] theorem StationConfig.ofDocument?_document (c : StationConfig) :
    ofDocument? c.document = some c := by
  simp only [ofDocument?, record?, document, required?_cons, optional?_cons, listOf?,
    Option.pure_def, Option.bind_eq_bind, Option.bind_some, reduceIte, uint16?_whole,
    String.reduceEq, mapM_map_eq_some PointConfig.ofDocument?_document]

/-! ## The whole configuration -/

namespace ServerConfig

/-- The keys of a configuration in their order. -/
def keys : List String :=
  ["bind_ip", "port", "tick_rate_ms", "select_timeout_ms", "max_open_connections", "logging",
    "stations"]

/-- A configuration as a document. -/
def document (c : ServerConfig) : Document :=
  .map [("bind_ip", .text c.bindAddress), ("port", .whole c.port.toNat),
    ("tick_rate_ms", .whole c.tickRate.toNat), ("select_timeout_ms", .whole c.selectTimeout.toNat),
    ("max_open_connections", .whole c.maxOpen.toNat), ("logging", c.logging.document),
    ("stations", .list (c.stations.map StationConfig.document))]

/-- Read a configuration. -/
def ofDocument? (d : Document) : Option ServerConfig := do
  let fields ← d.record? keys
  let standard : ServerConfig := {}
  let bindAddress ← optional? "bind_ip" text? standard.bindAddress fields
  let port ← optional? "port" uint16? standard.port fields
  let tickRate ← optional? "tick_rate_ms" uint64? standard.tickRate fields
  let selectTimeout ← optional? "select_timeout_ms" uint64? standard.selectTimeout fields
  let maxOpen ← optional? "max_open_connections" uint64? standard.maxOpen fields
  let logging ← optional? "logging" LogSettings.ofDocument? standard.logging fields
  let stations ← optional? "stations" (listOf? StationConfig.ofDocument?) standard.stations fields
  return { bindAddress, port, tickRate, selectTimeout, maxOpen, logging, stations }

/-- A configuration is read back as it was written. -/
@[simp] theorem ofDocument?_document (c : ServerConfig) : ofDocument? c.document = some c := by
  simp only [ofDocument?, record?, document, optional?_cons, text?, listOf?, Option.pure_def,
    Option.bind_eq_bind, Option.bind_some, reduceIte, String.reduceEq, uint16?_whole,
    uint64?_whole, LogSettings.ofDocument?_document,
    mapM_map_eq_some StationConfig.ofDocument?_document]

end ServerConfig

end Telecontrol
