import PathCatalog.Policy

namespace PathCatalog.CommandLine

/-- Why arguments are not those of a command. -/
inductive Misuse where
  | unknownArgument
  | invalidValue
  | valueValidation
  | argumentConflict
  | tooManyValues
  | invalidSubcommand
  | help
  | version
  | nothingAsked
  deriving DecidableEq, Repr

inductive NameLevel where
  | path
  | file
  | full
  deriving DecidableEq, Repr

def NameLevel.parse? : String → Option NameLevel
  | "path" => some .path
  | "file" => some .file
  | "full" => some .full
  | _ => none

inductive OptionName where
  | pathPattern
  | filePattern
  | config
  | paths
  | onParseError
  | onEmpty
  | priority
  | onMissing
  | json
  | level
  deriving DecidableEq, Repr

namespace OptionName

/-- The option's word after two dashes. -/
def long : OptionName → String
  | .pathPattern => "path-pattern"
  | .filePattern => "file-pattern"
  | .config => "config"
  | .paths => "paths"
  | .onParseError => "on-parse-error"
  | .onEmpty => "on-empty"
  | .priority => "priority"
  | .onMissing => "on-missing"
  | .json => "json"
  | .level => "level"

/-- The option's letter after one dash. -/
def short? : OptionName → Option Char
  | .pathPattern => some 'p'
  | .filePattern => some 'f'
  | _ => none

/-- Whether the option comes without a value. -/
def isFlag : OptionName → Bool
  | .paths => true
  | .json => true
  | _ => false

end OptionName

/-- An option that has been given, with its value. -/
inductive Setting where
  | pathPattern (pattern : String)
  | filePattern (pattern : String)
  | config (name : String)
  | paths
  | onParseError (policy : OnParseError)
  | onEmpty (policy : OnEmpty)
  | priority (assignment : String)
  | onMissing (policy : OnMissing)
  | json
  | level (level : NameLevel)
  deriving DecidableEq, Repr

def Setting.option : Setting → OptionName
  | .pathPattern _ => .pathPattern
  | .filePattern _ => .filePattern
  | .config _ => .config
  | .paths => .paths
  | .onParseError _ => .onParseError
  | .onEmpty _ => .onEmpty
  | .priority _ => .priority
  | .onMissing _ => .onMissing
  | .json => .json
  | .level _ => .level

/-- A policy's word that is not known is refused. -/
def policySetting {Policy : Type} (wrap : Policy → Setting) (read : Logged Misfit Policy) :
    Logged Misuse Setting := do
  let policy ← read.mapFault fun _ => .valueValidation
  return wrap policy

/-- The setting of an option by a value. -/
def settingOf (name : OptionName) (value : String) : Logged Misuse Setting :=
  match name with
  | .pathPattern => .done (.pathPattern value)
  | .filePattern => .done (.filePattern value)
  | .config => if value.isEmpty then .fail .invalidValue else .done (.config value)
  | .paths => .done .paths
  | .onParseError => policySetting .onParseError (.ofExcept (OnParseError.parse value))
  | .onEmpty => policySetting .onEmpty (.ofExcept (OnEmpty.parse value))
  | .priority => .done (.priority value)
  | .onMissing => policySetting .onMissing (OnMissing.parse value)
  | .json => .done .json
  | .level =>
      match NameLevel.parse? value with
      | some level => .done (.level level)
      | none => .fail .invalidValue

/-- What a command takes: some options, and texts if it takes any. -/
structure Shape where
  options : List OptionName
  takesTexts : Bool

/-- What has been read: settings, texts, and an option whose value has not been looked at. -/
structure Progress where
  settings : List Setting := []
  texts : List String := []
  pending : Option (OptionName × Option String) := none

namespace Progress

/-- One more setting; no option may be given twice. -/
def give (progress : Progress) (name : OptionName) (value : String) : Logged Misuse Progress :=
  if progress.settings.any fun setting => setting.option == name then .fail .argumentConflict
  else do
    let setting ← settingOf name value
    return { progress with settings := progress.settings ++ [setting] }

/-- The pending option's value is looked at; it has to be there. -/
def settle (progress : Progress) : Logged Misuse Progress :=
  match progress.pending with
  | none => .done progress
  | some (_, none) => .fail .invalidValue
  | some (name, some value) => give { progress with pending := none } name value

/-- A fault after the pending option's value has been looked at, whatever comes of that. -/
def refuse (progress : Progress) (misuse : Misuse) : Logged Misuse Progress :=
  ⟨.error misuse, progress.settle.events⟩

/-- An option by its name; the value may be attached or may follow. -/
def option (progress : Progress) (name : OptionName) (attached : Option String) :
    Logged Misuse Progress :=
  match name.isFlag, attached with
  | true, some _ => progress.refuse .tooManyValues
  | true, none => do
      let settled ← progress.settle
      settled.give name ""
  | false, some value => do
      let settled ← progress.settle
      settled.give name value
  | false, none => do
      let settled ← progress.settle
      return { settled with pending := some (name, none) }

/-- The request for help, after the pending option. -/
def help (progress : Progress) : Logged Misuse Progress := do
  let _ ← progress.settle
  Logged.fail .help

/-- An argument after two dashes, cut at its first equals sign. -/
def longOption (shape : Shape) (progress : Progress) (word : String) (attached : Option String) :
    Logged Misuse Progress :=
  if word = "help" then
    match attached with
    | some _ => progress.refuse .tooManyValues
    | none => progress.help
  else
    match shape.options.find? fun name => name.long == word with
    | some name => progress.option name attached
    | none => progress.refuse .unknownArgument

/-- An argument after one dash: a letter, then its value with or without an equals sign. -/
def shortOption (shape : Shape) (progress : Progress) (letter : Char) (rest : List Char) :
    Logged Misuse Progress :=
  if letter = 'h' then progress.help
  else
    match shape.options.find? fun name => name.short? == some letter with
    | some name =>
        let attached := match rest with
          | [] => none
          | '=' :: value => some (String.ofList value)
          | value => some (String.ofList value)
        progress.option name attached
    | none => progress.refuse .unknownArgument

/-- A text that is neither an option nor its value. -/
def addText (shape : Shape) (progress : Progress) (text : String) : Logged Misuse Progress :=
  if shape.takesTexts then do
    let settled ← progress.settle
    return { settled with texts := settled.texts ++ [text] }
  else progress.refuse .unknownArgument

/-- A text is the value of an option that waits for one. -/
def plain (shape : Shape) (progress : Progress) (text : String) : Logged Misuse Progress :=
  match progress.pending with
  | some (name, none) => .done { progress with pending := some (name, some text) }
  | _ => progress.addText shape text

end Progress

/-- The text before the first equals sign, and the text after it. -/
def cutAttached (text : List Char) : String × Option String :=
  (String.ofList (text.takeWhile (· != '=')),
    match text.dropWhile (· != '=') with
    | [] => none
    | _ :: value => some (String.ofList value))

/-- The arguments one after the other; after two dashes alone every argument is a text. -/
def readArguments (shape : Shape) : Bool → List String → Progress → Logged Misuse Progress
  | _, [], progress => progress.settle
  | true, argument :: rest, progress => do
      let next ← progress.addText shape argument
      readArguments shape true rest next
  | false, argument :: rest, progress => do
      match argument.toList with
      | ['-', '-'] => readArguments shape true rest progress
      | '-' :: '-' :: body =>
          let cut := cutAttached body
          let next ← progress.longOption shape cut.1 cut.2
          readArguments shape false rest next
      | '-' :: letter :: body =>
          let next ← progress.shortOption shape letter body
          readArguments shape false rest next
      | _ =>
          let next ← progress.plain shape argument
          readArguments shape false rest next

/-- The options that say which archive is meant. -/
structure Selection where
  pathPattern : Option String := none
  filePattern : Option String := none
  config : Option String := none
  deriving DecidableEq, Repr

structure FindRequest where
  selection : Selection
  constraints : List String
  paths : Bool
  onParseError : Option OnParseError
  onEmpty : Option OnEmpty
  priority : Option String
  onMissing : Option OnMissing
  json : Bool
  deriving DecidableEq, Repr

structure NameRequest where
  selection : Selection
  level : NameLevel
  fields : List String
  deriving DecidableEq, Repr

inductive Request where
  | find (request : FindRequest)
  | name (request : NameRequest)
  | keys (selection : Selection)
  deriving DecidableEq, Repr

def Request.selection : Request → Selection
  | .find request => request.selection
  | .name request => request.selection
  | .keys selection => selection

/-- The options that every command has. -/
def selectionOptions : List OptionName :=
  [.pathPattern, .filePattern, .config]

/-- The first setting that answers a question. -/
def ask {Answer : Type} (settings : List Setting) (question : Setting → Option Answer) :
    Option Answer :=
  settings.findSome? question

/-- The archive that some settings mean. -/
def selectionOf (settings : List Setting) : Selection where
  pathPattern := ask settings fun
    | .pathPattern pattern => some pattern
    | _ => none
  filePattern := ask settings fun
    | .filePattern pattern => some pattern
    | _ => none
  config := ask settings fun
    | .config name => some name
    | _ => none

def findRequest (progress : Progress) : FindRequest where
  selection := selectionOf progress.settings
  constraints := progress.texts
  paths := progress.settings.contains .paths
  onParseError := ask progress.settings fun
    | .onParseError policy => some policy
    | _ => none
  onEmpty := ask progress.settings fun
    | .onEmpty policy => some policy
    | _ => none
  priority := ask progress.settings fun
    | .priority assignment => some assignment
    | _ => none
  onMissing := ask progress.settings fun
    | .onMissing policy => some policy
    | _ => none
  json := progress.settings.contains .json

/-- The arguments of the building of a name; without a level it is the full one. -/
def nameRequest (progress : Progress) : NameRequest where
  selection := selectionOf progress.settings
  level := (ask progress.settings fun
    | .level level => some level
    | _ => none).getD .full
  fields := progress.texts

def findShape : Shape :=
  ⟨selectionOptions ++ [.paths, .onParseError, .onEmpty, .priority, .onMissing, .json], true⟩

def nameShape : Shape :=
  ⟨selectionOptions ++ [.level], true⟩

def keysShape : Shape :=
  ⟨selectionOptions, false⟩

/-- The words that name commands. -/
def commandWords : List String :=
  ["find", "name", "keys", "help"]

/-- Help is given on all commands, or on one that exists. -/
def helpMisuse : List String → Misuse
  | [] => .help
  | [word] => if commandWords.contains word then .help else .invalidSubcommand
  | _ => .invalidSubcommand

/-- What is wrong with a first argument that is no command's word. -/
def firstMisuse (argument : String) (rest : List String) : Misuse :=
  match argument.toList with
  | ['-', '-'] =>
      match rest with
      | [] => .nothingAsked
      | word :: _ => if commandWords.contains word then .unknownArgument else .invalidSubcommand
  | '-' :: '-' :: body =>
      match cutAttached body with
      | ("help", none) => .help
      | ("version", none) => .version
      | ("help", some _) => .tooManyValues
      | ("version", some _) => .tooManyValues
      | _ => .unknownArgument
  | '-' :: 'h' :: _ => .help
  | '-' :: 'V' :: _ => .version
  | '-' :: _ :: _ => .unknownArgument
  | _ => .invalidSubcommand

/-- The command that the arguments ask for. -/
def readRequest : List String → Logged Misuse Request
  | [] => .fail .nothingAsked
  | "find" :: rest => do
      let progress ← readArguments findShape false rest {}
      return .find (findRequest progress)
  | "name" :: rest => do
      let progress ← readArguments nameShape false rest {}
      return .name (nameRequest progress)
  | "keys" :: rest => do
      let progress ← readArguments keysShape false rest {}
      return .keys (selectionOf progress.settings)
  | "help" :: rest => .fail (helpMisuse rest)
  | argument :: rest => .fail (firstMisuse argument rest)

end PathCatalog.CommandLine
