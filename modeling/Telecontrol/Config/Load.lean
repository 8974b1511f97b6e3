import Telecontrol.Config.Decode
import Telecontrol.Document.Json
import Telecontrol.Document.Toml
import Telecontrol.Document.Variable
import Telecontrol.Document.Yaml

/-! # Loading a configuration

A configuration is **layered**: the defaults, then a file, then environment variables. The extension
of the file's name says its format.

Main statements: `ConfigFormat.read?_proper` (what is read is proper, whatever its format),
`ConfigFile.document?_eq_notFound_iff`, and `ServerConfig.load_eq_of_document` (a file that says
everything is loaded as what it says) with `ServerConfig.load_none_nil` (without any source the
configuration is the default one). -/

namespace Telecontrol

/-- The format of a configuration file. -/
inductive ConfigFormat where
  | yaml
  | toml
  | json
  deriving DecidableEq, Repr

namespace ConfigFormat

/-- The format that an extension stands for; its case matters. -/
def ofExtension? : String → Option ConfigFormat
  | "yaml" | "yml" => some .yaml
  | "toml" => some .toml
  | "json" => some .json
  | _ => none

/-- Read a text in a format. -/
def read? : ConfigFormat → String → Option Document
  | .yaml => Yaml.read?
  | .toml => Toml.read?
  | .json => Json.read?

/-- What is read is proper, whatever its format. -/
theorem read?_proper {format : ConfigFormat} {text : String} {d : Document}
    (h : format.read? text = some d) : d.Proper := by
  cases format with
  | yaml => exact Yaml.read?_proper h
  | toml => exact Toml.read?_proper h
  | json => exact Json.read?_proper h

end ConfigFormat

/-- What is found at the path of a file. -/
inductive FileContent where
  | missing
  /-- There is something, but no text can be read from it. -/
  | unreadable
  | text (content : String)
  deriving DecidableEq, Repr

/-- A file that was named as a configuration. -/
structure ConfigFile where
  path : String
  content : FileContent
  deriving DecidableEq, Repr

namespace ConfigFile

/-- The last part of a path. -/
def fileName (path : String) : List Char :=
  (((path.toList.splitOn '/').filter fun part => part ≠ [] && part ≠ ['.']).getLast?).getD []

/-- The extension of a path: what follows the last dot of the file's name. A name without a dot has
none, and neither has one whose only dot is the first character. -/
def extension? (path : String) : Option String :=
  let name := fileName path
  if name = ['.', '.'] then none
  else match (name.splitOn '.').reverse with
    -- no dot, or only one in front
    | [] | [_] | [_, []] => none
    | extension :: _ => some (String.ofList extension)

/-- The format of a file. -/
def format (path : String) : Except LoadFault ConfigFormat :=
  match extension? path with
  | none => .error .noExtension
  | some extension =>
    match ConfigFormat.ofExtension? extension with
    | none => .error (.unsupportedFormat extension)
    | some format => .ok format

/-- The document in a file; `none` inside means that the content has not the form of one, or is no
map. -/
def document? (f : ConfigFile) : Except LoadFault (Option Document) :=
  match f.content with
  | .missing => .error (.fileNotFound f.path)
  | .unreadable => (format f.path).map fun _ => none
  | .text text =>
    (format f.path).map fun format =>
      match format.read? text with
      | some (.map fields) => some (.map fields)
      | _ => none

/-- The format of a file is not what is wrong with a file that does not exist. -/
theorem format_ne_notFound (path other : String) :
    format path ≠ .error (.fileNotFound other) := by
  unfold format
  split
  · simp
  · split <;> simp

/-- A file that does not exist is reported as such, whatever its name. -/
theorem document?_eq_notFound_iff (f : ConfigFile) :
    f.document? = .error (.fileNotFound f.path) ↔ f.content = .missing := by
  obtain ⟨path, content⟩ := f
  have ne := format_ne_notFound path path
  cases content with
  | missing => simp [document?]
  | unreadable => cases h : format path <;> simp_all [document?, Except.map]
  | text text => cases h : format path <;> simp_all [document?, Except.map]

end ConfigFile

/-- Settings of the log that say everything take the place of any others. -/
theorem LogSettings.overlay_document (below top : LogSettings) :
    below.document.overlay top.document = top.document := by
  cases htop : top.directory <;>
    simp [LogSettings.document, Document.overlay, Document.overlayFields, Document.lookup,
      Document.put, htop]

namespace ServerConfig

/-- A configuration that says everything takes the place of any other. -/
theorem overlay_document (below top : ServerConfig) :
    below.document.overlay top.document = top.document := by
  simp [document, Document.overlay, Document.overlayFields, Document.lookup, Document.put,
    LogSettings.overlay_document]

/-- The first part of the names of the variables that belong to the service. -/
def variableLeading : String := "IECSRV_"

/-- Load a configuration from a file alone. -/
def loadFile (file : ConfigFile) : Except LoadFault ServerConfig := do
  match (← file.document?).bind ofDocument? with
  | some c => .ok c
  | none => .error .fileNotExtracted

/-- Load a configuration from all its layers. -/
def load (file : Option ConfigFile) (environment : List (String × String)) :
    Except LoadFault ServerConfig := do
  let standard : ServerConfig := {}
  let layered ← match file with
    | none => pure (some standard.document)
    | some f => (·.map standard.document.overlay) <$> f.document?
  let top := Variable.document variableLeading environment
  match layered.bind fun d => ofDocument? (d.overlay top) with
  | some c => .ok c
  | none => .error .notExtracted

/-- A file that says everything is loaded as what it says. -/
theorem load_eq_of_document {file : ConfigFile} {c : ServerConfig}
    (h : file.document? = .ok (some c.document)) : load (some file) [] = .ok c := by
  have htop : Variable.document variableLeading [] = .map [] := rfl
  have hoverlay : c.document.overlay (.map []) = c.document := Document.overlay_map_nil _
  simp only [load, h, htop, Functor.map, Except.map, bind, Except.bind, Option.map, Option.bind,
    overlay_document, hoverlay, ofDocument?_document]

/-- Without any source the configuration is the default one. -/
theorem load_none_nil : load none [] = .ok {} := by
  have h : Variable.document variableLeading [] = .map [] := rfl
  have ho : (document {}).overlay (.map []) = document {} := Document.overlay_map_nil _
  simp only [load, h, bind, pure, Except.bind, Except.pure, Option.bind, ho, ofDocument?_document]

end ServerConfig

end Telecontrol
