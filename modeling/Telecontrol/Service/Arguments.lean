/-! # Arguments of the service

The command line of the service: an optional configuration file, a log level, and whether the
configuration is only to be checked. An option with a value takes it from the same word or the next
one. Two dashes by themselves end the options.

Main statements: `ArgumentReader.word_long` (what an option with its value does) and
`Invocation.ofWords_words` (any arguments can be asked for). -/

namespace Telecontrol

/-- The **arguments** of the service. -/
structure Arguments where
  /-- The path of the configuration file. -/
  config : Option String := none
  /-- The log level that takes the place of the configured one. -/
  logLevel : Option String := none
  /-- Whether the service ends after checking the configuration. -/
  validate : Bool := false
  deriving DecidableEq, Repr

/-- What is wrong with a command line. -/
inductive UsageFault where
  | unexpected (word : String)
  | valueMissing (option : String)
  | valueUnexpected (option : String)
  | repeated (option : String)
  deriving DecidableEq, Repr

/-- The fault in words. -/
def UsageFault.text : UsageFault → String
  | .unexpected word => "unexpected argument '" ++ word ++ "' found"
  | .valueMissing option => "a value is required for '" ++ option ++ "' but none was supplied"
  | .valueUnexpected option => "unexpected value for '" ++ option ++ "'"
  | .repeated option => "the argument '" ++ option ++ "' cannot be used multiple times"

/-- What a command line asks for. -/
inductive Invocation where
  | serve (arguments : Arguments)
  | version
  | help
  deriving DecidableEq, Repr

/-- An option of the command line. -/
inductive ServiceOption where
  | config
  | logLevel
  | validate
  | help
  | version
  deriving DecidableEq, Repr

namespace ServiceOption

/-- Every option. -/
def all : List ServiceOption := [.config, .logLevel, .validate, .help, .version]

/-- The long name of an option. -/
def long : ServiceOption → String
  | .config => "config"
  | .logLevel => "log-level"
  | .validate => "validate"
  | .help => "help"
  | .version => "version"

/-- The letter of an option. -/
def letter? : ServiceOption → Option Char
  | .config => some 'c'
  | .logLevel => some 'l'
  | .validate => none
  | .help => some 'h'
  | .version => some 'V'

/-- Whether an option has a value. -/
def hasValue : ServiceOption → Bool
  | .config | .logLevel => true
  | _ => false

/-- How a complaint names an option. -/
def text (o : ServiceOption) : String := "--" ++ o.long

/-- The option of a long name. -/
def ofLong? (name : String) : Option ServiceOption := all.find? fun o => o.long == name

/-- The option of a letter. -/
def ofLetter? (c : Char) : Option ServiceOption := all.find? fun o => o.letter? == some c

end ServiceOption

/-- What has been read of a command line. -/
structure ArgumentReader where
  arguments : Arguments := {}
  /-- The option whose value is awaited. -/
  awaited : Option ServiceOption := none
  /-- Whether two dashes have ended the options. -/
  ended : Bool := false
  /-- What was asked for instead of serving; nothing after it counts. -/
  shown : Option Invocation := none
  deriving DecidableEq, Repr

namespace ArgumentReader

/-- Give an option its value. -/
def give (r : ArgumentReader) (o : ServiceOption) (value : String) :
    Except UsageFault ArgumentReader :=
  match o with
  | .config =>
    if r.arguments.config.isSome then .error (.repeated o.text)
    else if value.isEmpty then .error (.valueMissing o.text)
    else .ok { r with arguments.config := some value, awaited := none }
  | .logLevel =>
    if r.arguments.logLevel.isSome then .error (.repeated o.text)
    else .ok { r with arguments.logLevel := some value, awaited := none }
  | _ => .error (.valueUnexpected o.text)

/-- Take an option without a value. -/
def set (r : ArgumentReader) (o : ServiceOption) : Except UsageFault ArgumentReader :=
  match o with
  | .validate =>
    if r.arguments.validate then .error (.repeated o.text)
    else .ok { r with arguments.validate := true }
  | .help => .ok { r with shown := some .help }
  | .version => .ok { r with shown := some .version }
  | .config | .logLevel => .ok { r with awaited := some o }

/-- Read letters after a dash; what follows the letter of an option with a value is its value. -/
def letters (r : ArgumentReader) : List Char → Except UsageFault ArgumentReader
  | [] => .ok r
  | c :: cs =>
    if r.shown.isSome then .ok r
    else match ServiceOption.ofLetter? c with
      | none => .error (.unexpected ("-" ++ c.toString))
      | some o =>
        if o.hasValue && !cs.isEmpty then
          r.give o (String.ofList (if cs.head? = some '=' then cs.drop 1 else cs))
        else do letters (← r.set o) cs

/-- Read a word. -/
def word (r : ArgumentReader) (w : String) : Except UsageFault ArgumentReader :=
  if r.shown.isSome then .ok r
  -- there is no argument that is not an option
  else if r.ended then .error (.unexpected w)
  else match r.awaited, w.toList with
    | some o, cs =>
      -- a word that looks like an option is no value
      if cs.head? = some '-' && cs ≠ ['-'] then .error (.valueMissing o.text) else r.give o w
    | none, '-' :: '-' :: c :: cs =>
      let name := (c :: cs).takeWhile (· ≠ '=')
      match ServiceOption.ofLong? (String.ofList name), (c :: cs).dropWhile (· ≠ '=') with
      | none, _ => .error (.unexpected w)
      | some o, [] => r.set o
      | some o, _ :: value => r.give o (String.ofList value)
    | none, '-' :: c :: cs => if c = '-' then .ok { r with ended := true } else r.letters (c :: cs)
    | none, _ => .error (.unexpected w)

/-- What the whole command line asks for. The environment names a configuration file when the
command line does not. -/
def finish (r : ArgumentReader) (configVariable : Option String) : Except UsageFault Invocation :=
  match r.shown, r.awaited with
  | some invocation, _ => .ok invocation
  | none, some o => .error (.valueMissing o.text)
  | none, none =>
    match r.arguments.config, configVariable with
    | none, some path =>
      if path.isEmpty then .error (.valueMissing ServiceOption.config.text)
      else .ok (.serve { r.arguments with config := some path })
    | _, _ => .ok (.serve r.arguments)

end ArgumentReader

/-- The variable that names a configuration file. -/
def Invocation.configVariable : String := "IECSRV_CONFIG"

/-- What the words of a command line ask for. -/
def Invocation.ofWords (words : List String) (environment : List (String × String)) :
    Except UsageFault Invocation := do
  let r ← words.foldlM ArgumentReader.word {}
  r.finish (environment.lookup configVariable)

/-- An option with a value in the same word is given that value, whatever it begins with. -/
theorem ArgumentReader.word_long {r : ArgumentReader} (hshown : r.shown = none)
    (hawaited : r.awaited = none) (hended : r.ended = false) (o : ServiceOption) (value : String) :
    r.word (o.text ++ "=" ++ value) = r.give o value := by
  rw [word, hshown, hended, hawaited, ServiceOption.text]
  simp only [String.toList_append]
  cases o <;> simp [ServiceOption.long, ServiceOption.ofLong?, ServiceOption.all]

/-- The words that ask for arguments. -/
def Arguments.words (a : Arguments) : List String :=
  let word (o : ServiceOption) (value : String) : String := o.text ++ "=" ++ value
  (a.config.map (word .config)).toList ++ (a.logLevel.map (word .logLevel)).toList ++
    if a.validate then [ServiceOption.validate.text] else []

/-- Arguments are asked for by their words, if the path of the configuration is not empty and the
environment does not name one where they have none. -/
theorem Invocation.ofWords_words {a : Arguments} {environment : List (String × String)}
    (hpath : a.config ≠ some "")
    (henvironment : a.config = none → environment.lookup configVariable = none) :
    ofWords a.words environment = .ok (.serve a) := by
  obtain ⟨config, logLevel, validate⟩ := a
  have hconfig : (config.map fun path => ServiceOption.config.text ++ "=" ++ path).toList.foldlM
      ArgumentReader.word {} = .ok { arguments := { config } } := by
    cases config with
    | none => rfl
    | some path =>
      have hne : path.isEmpty = false := by
        rw [Bool.eq_false_iff, ne_eq, String.isEmpty_iff]
        exact fun h => hpath (h ▸ rfl)
      rw [Option.map_some, Option.toList_some, List.foldlM_cons,
        ArgumentReader.word_long rfl rfl rfl, ArgumentReader.give, if_neg (by decide), hne]
      rfl
  have hlevel : (logLevel.map fun level =>
      ServiceOption.logLevel.text ++ "=" ++ level).toList.foldlM ArgumentReader.word
        { arguments := { config } } = .ok { arguments := { config, logLevel } } := by
    cases logLevel with
    | none => rfl
    | some level =>
      rw [Option.map_some, Option.toList_some, List.foldlM_cons,
        ArgumentReader.word_long rfl rfl rfl]
      rfl
  have hvalidate : (if validate then [ServiceOption.validate.text] else []).foldlM
      ArgumentReader.word { arguments := { config, logLevel } } =
        .ok { arguments := { config, logLevel, validate } } := by
    cases validate <;> rfl
  -- each of the three options sets its own field, so they are read one after the other
  have hwords : (Arguments.words { config, logLevel, validate }).foldlM ArgumentReader.word {} =
      .ok { arguments := { config, logLevel, validate } } := by
    rw [Arguments.words, List.foldlM_append, List.foldlM_append]
    simp only [hconfig, hlevel, hvalidate, bind, Except.bind]
  rw [ofWords, hwords]
  simp only [bind, Except.bind, ArgumentReader.finish]
  cases config with
  | none => rw [henvironment rfl]
  | some path => rfl

end Telecontrol
