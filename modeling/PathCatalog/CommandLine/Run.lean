import PathCatalog.CommandLine.Arguments
import PathCatalog.CommandLine.Assignment
import PathCatalog.Config
import PathCatalog.Table.Display
import PathCatalog.Text.JsonLine

namespace PathCatalog.CommandLine

inductive Fault where
  | misuse (kind : Misuse)
  | failure (cause : Failure)
  | loading (name : String) (cause : Failure)
  | assignment (fault : AssignmentFault)
  | patternsMissing
  | severalValues (name : String)
  | tooWide
  deriving DecidableEq, Repr

/-- The messages of a fault, the outermost first; misused arguments and what breaks off have none. -/
def Fault.chain : Fault → List String
  | .misuse _ => []
  | .tooWide => []
  | .failure .tooManyCombinations => []
  | .failure cause => [cause.message]
  | .loading name cause => [s!"Failed to load {name}", cause.message]
  | .assignment fault => [fault.message]
  | .patternsMissing => ["Both --path-pattern and --file-pattern are required without --config"]
  | .severalValues name => [s!"Expected a single value for '{name}'"]

/-- A computation of the library within a command. -/
def within {Value : Type} (run : Logged Failure Value) : Logged Fault Value :=
  run.mapFault .failure

/-- The reading of an assignment within a command. -/
def assigned {Value : Type} (result : Except AssignmentFault Value) : Logged Fault Value :=
  (Logged.ofExcept result).mapFault .assignment

/-- The configuration from the file, if one is named, or from the patterns alone. -/
def Selection.base (selection : Selection) (host : Host) : Logged Fault Config :=
  match selection.config, selection.pathPattern, selection.filePattern with
  | some name, _, _ => (Config.ofFile host name).mapFault (.loading name)
  | none, some pathPattern, some filePattern =>
      .done ⟨pathPattern, filePattern, .raise, .raise, none, none⟩
  | none, _, _ => .fail .patternsMissing

/-- The configuration that is meant; patterns that are given replace those of the file. -/
def Selection.resolve (selection : Selection) (host : Host) : Logged Fault Config := do
  let config ← selection.base host
  return { config with
    pathPattern := selection.pathPattern.getD config.pathPattern
    filePattern := selection.filePattern.getD config.filePattern }

/-- The policies of a search: those that are given, then those of the configuration. -/
def FindRequest.options (request : FindRequest) (config : Config) : FindOptions :=
  ⟨request.onParseError.getD config.onParseError, request.onEmpty.getD config.onEmpty⟩

/-- The priority of a search: the one that is given, then the one of the configuration. -/
def FindRequest.priorityOf (request : FindRequest) (config : Config) :
    Logged Fault (Option Priority) := do
  let chosen ← match request.priority with
    | some argument => do
        let (column, order) ← assigned (parseAssignment argument)
        pure (some ⟨column, order, none, .raise⟩)
    | none => pure config.priority
  return chosen.map fun priority : Priority =>
    { priority with onMissing := request.onMissing.getD priority.onMissing }

/-- The table reduced by a priority, if there is one. -/
def reduce (priority : Option Priority) (table : Table) : Logged Fault Table :=
  match priority with
  | none => .done table
  | some priority => do
      let reduced ← within (priority.apply table)
      let column := priority.column
      let after := reduced.size
      let before := table.size
      Logged.note .debug s!"Priority filter on {column} kept {after} of {before} rows"
      return reduced

/-- A row as the members of an object: its path and its values; a column `path` wins. -/
def members (record : String × FieldMap) : FieldMap :=
  (Entries.ofList [("path", record.1)]).merged record.2

def jsonLines (table : Table) : List String :=
  table.records.map fun record => Text.jsonObject (members record)

/-- The table that a search prints. -/
def FindRequest.table (request : FindRequest) (host : Host) : Logged Fault Table := do
  let config ← request.selection.resolve host
  let archive ← within (.ofExcept config.archive)
  let query ← assigned (parseQuery request.constraints)
  let search := if request.paths then archive.findPaths else archive.findFiles
  let found ← within (search (config.provider host) query (request.options config))
  let priority ← request.priorityOf config
  reduce priority found

/-- The search patterns of a search; none if it fails on the way to them. -/
def FindRequest.patterns (request : FindRequest) (host : Host) : List String :=
  let expanded : Logged Fault (List String) := do
    let config ← request.selection.resolve host
    let archive ← within (.ofExcept config.archive)
    let query ← assigned (parseQuery request.constraints)
    let template := if request.paths then archive.path else archive.full
    within (.ofExcept (query.expand template))
  match expanded.outcome with
  | .ok patterns => patterns
  | .error _ => []

def runFind (request : FindRequest) (host : Host) : Logged Fault (List String) := do
  let table ← request.table host
  if request.json then return jsonLines table
  else
    match table.display? with
    | some text => return Text.lines text
    | none => Logged.fail .tooWide

/-- The values of some assignments after others; each has to be a single one. -/
def fieldsFrom (fields : FieldMap) : List String → Logged Fault FieldMap
  | [] => .done fields
  | argument :: rest => do
      let (name, values) ← assigned (parseAssignment argument)
      match values with
      | [value] => fieldsFrom (fields.set name value) rest
      | _ => Logged.fail (.severalValues name)

def runName (request : NameRequest) (host : Host) : Logged Fault (List String) := do
  let config ← request.selection.resolve host
  let archive ← within (.ofExcept config.archive)
  let fields ← fieldsFrom Entries.empty request.fields
  let name ← within (.ofExcept (match request.level with
    | .path => archive.pathName fields
    | .file => archive.fileName fields
    | .full => archive.fullName fields))
  return [name]

def runKeys (selection : Selection) (host : Host) : Logged Fault (List String) := do
  let config ← selection.resolve host
  let archive ← within (.ofExcept config.archive)
  return Text.lines archive.display

/-- The lines that the arguments' command prints. -/
def run (host : Host) (arguments : List String) : Logged Fault (List String) := do
  let request ← (readRequest arguments).mapFault .misuse
  match request with
  | .find request => runFind request host
  | .name request => runName request host
  | .keys selection => runKeys selection host

end PathCatalog.CommandLine
