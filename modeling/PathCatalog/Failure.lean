import PathCatalog.Text.Split

namespace PathCatalog

/-- What is wrong with the text of a template. -/
inductive TemplateFault where
  | unbalanced (brace : Char) (offset : Nat)
  | anonymous
  | badName (name : String)
  | reservedName (name : String)
  | badHint (spec name : String)
  | separatorInFileName
  deriving DecidableEq, Repr

def TemplateFault.reason : TemplateFault → String
  | .unbalanced brace offset => s!"unbalanced '{brace}' at offset {offset}"
  | .anonymous => "anonymous placeholders are not supported"
  | .badName name => s!"'{name}' is not a valid placeholder name"
  | .reservedName name => s!"'{name}' is not a valid placeholder"
  | .badHint spec name => s!"unsupported format spec '{spec}' for '{name}'"
  | .separatorInFileName => "file_pattern cannot contain '/'"

/-- Arguments that do not fit what they are applied to. -/
inductive Misfit where
  | unknownPolicy (option value accepted : String)
  | notAField (field context : String) (fields : List String)
  | duplicateColumn (column : String)
  | rowWidth (path : String) (found : Nat) (columns : List String)
  | recordFields (path : String) (found columns : List String)
  | recordLacks (path column : String)
  | unknownColumn (name : String) (columns : List String)
  | columnExists (name : String)
  | columnHeight (name : String) (found rows : Nat)
  | priorityUnavailable (column : String)
  | priorityGroups (column : String)
  deriving DecidableEq, Repr

def Misfit.reason : Misfit → String
  | .unknownPolicy option value accepted =>
      s!"Unknown value for '{option}': '{value}'. Must be one of {accepted}."
  | .notAField field context fields =>
      let listed := Text.joined ", " fields
      s!"'{field}' is not a field of '{context}' (fields: {listed})"
  | .duplicateColumn column => s!"duplicate column '{column}'"
  | .rowWidth path found columns =>
      let expected := columns.length
      let listed := Text.joined ", " columns
      s!"row '{path}' has {found} values, expected {expected} ({listed})"
  | .recordFields path found columns =>
      let fields := Text.joined ", " found
      let listed := Text.joined ", " columns
      s!"record '{path}' has fields ({fields}), expected ({listed})"
  | .recordLacks path column => s!"record '{path}' lacks field '{column}'"
  | .unknownColumn name columns =>
      let listed := Text.joined ", " columns
      s!"unknown column '{name}' (columns: {listed})"
  | .columnExists name => s!"column '{name}' already exists"
  | .columnHeight name found rows => s!"column '{name}' has {found} values for {rows} rows"
  | .priorityUnavailable column => s!"column ('{column}') must be available in the table"
  | .priorityGroups column => s!"`group_by` may not contain column ('{column}')"

/-- What is wrong with a configuration. -/
inductive ConfigFault where
  | unreadable (name reason : String)
  | malformed
  | unknownPolicy (cause : Misfit)
  | emptyPatterns
  | emptyOrder (column : String)
  deriving DecidableEq, Repr

def ConfigFault.reason : ConfigFault → String
  | .unreadable name reason => s!"Failed to read config file {name}: {reason}"
  | .malformed => "Failed to parse YAML configuration:"
  | .unknownPolicy cause =>
      "Failed to parse YAML configuration: Invalid query: " ++ cause.reason
  | .emptyPatterns => "path_pattern and file_pattern cannot both be empty"
  | .emptyOrder column => s!"priority order for column '{column}' cannot be empty"

/-- Why the engine that matches candidates gives no answer. -/
inductive EngineFault where
  | oversizedPattern
  | tooManyBranches
  deriving DecidableEq, Repr

def EngineFault.reason : EngineFault → String
  | .oversizedPattern => "The widths of the pattern's fields demand too many characters"
  | .tooManyBranches => "Error executing regex: Max stack size exceeded for backtracking"

/-- Why an operation failed; too many combinations break it off. -/
inductive Failure where
  | invalidTemplate (template : String) (fault : TemplateFault)
  | missingField (field template : String)
  | unreadablePath (path pattern : String)
  | nothingFound (patterns : List String)
  | repeatedMetadata (duplicates : List String)
  | ambiguousPriority (column value group : String)
  | missingPriority (group : String)
  | misfit (cause : Misfit)
  | invalidConfig (fault : ConfigFault)
  | groupsLeft (column : String)
  | engine (fault : EngineFault)
  | tooManyCombinations
  | unlistable
  deriving DecidableEq, Repr

def Failure.message : Failure → String
  | .invalidTemplate template fault =>
      let reason := fault.reason
      s!"Invalid template '{template}': {reason}"
  | .missingField field template => s!"Missing value for field '{field}' in template '{template}'"
  | .unreadablePath path pattern =>
      s!"Could not parse '{path}' with the pattern '{pattern}' - are there contradictory values?"
  | .nothingFound patterns =>
      "Found no files matching criteria. Tried the following pattern(s):" ++
        String.join (patterns.map fun pattern => s!"\n- '{pattern}'")
  | .repeatedMetadata duplicates =>
      "This query leads to non-unique metadata. Please adjust your query.\nFirst duplicates:\n" ++
        Text.joined "\n" duplicates
  | .ambiguousPriority column value group =>
      s!"Found more than one `{column} == '{value}'` for\n{group}"
  | .missingPriority group =>
      s!"Did not find any element from the priority list for\n{group}"
  | .misfit cause => "Invalid query: " ++ cause.reason
  | .invalidConfig fault => "Configuration error: " ++ fault.reason
  | .groupsLeft column => s!"Internal error: priority filter on '{column}' left duplicate groups"
  | .engine fault => "Regex error: " ++ fault.reason
  | .tooManyCombinations => "capacity overflow"
  | .unlistable => "The base of the search is not a directory"

end PathCatalog
