import PathCatalog.Archive
import PathCatalog.Document.Node
import PathCatalog.Provider.Walk
import PathCatalog.Table.Priority

namespace PathCatalog

structure Config where
  pathPattern : String
  filePattern : String
  onParseError : OnParseError := .raise
  onEmpty : OnEmpty := .raise
  priority : Option Priority := none
  testPaths : Option (List String) := none
  deriving DecidableEq, Repr

namespace Config

open Document

/-- What every configuration that is read satisfies. -/
structure Valid (config : Config) : Prop where
  patterns : config.pathPattern ≠ "" ∨ config.filePattern ≠ ""
  order : ∀ priority ∈ config.priority, priority.order ≠ []

/-- The text of a scalar in any form. -/
def text : Node → Except ConfigFault String
  | .scalar text _ _ => .ok text
  | _ => .error .malformed

/-- The words for a value that is absent. -/
def nullWords : List String :=
  ["null", "Null", "NULL", "~"]

/-- Whether an optional value is absent. -/
def isAbsent : Node → Except ConfigFault Bool
  | .scalar text true none => .ok (text.isEmpty || nullWords.contains text)
  | .scalar text true (some .null) =>
      if nullWords.contains text then .ok true else .error .malformed
  | _ => .ok false

def textOf (contents : Contents) (node : Node) : Except ConfigFault String :=
  text (contents.resolve node)

def textsOf (contents : Contents) : List Node → Except ConfigFault (List String)
  | [] => .ok []
  | node :: rest => do
      let first ← textOf contents node
      let others ← textsOf contents rest
      return first :: others

/-- The texts of a sequence; a value that is not there is a sequence without items. -/
def texts (contents : Contents) (node : Node) : Except ConfigFault (List String) :=
  match contents.resolve node with
  | .sequence items => textsOf contents items
  | .scalar "" true _ => .ok []
  | _ => .error .malformed

/-- The entries of a mapping; a value that is not there is a mapping without entries. -/
def pairs (contents : Contents) (node : Node) : Except ConfigFault (List (Node × Node)) :=
  match contents.resolve node with
  | .mapping pairs => .ok pairs
  | .scalar "" true _ => .ok []
  | _ => .error .malformed

/-- An optional value is read unless it is absent. -/
def optional {Value : Type} (contents : Contents) (read : Node → Logged ConfigFault Value)
    (node : Node) : Logged ConfigFault (Option Value) := do
  if ← Logged.ofExcept (isAbsent (contents.resolve node)) then return none
  else
    let value ← read node
    return some value

/-- A policy's word that is not known is a fault of its own. -/
def policy {Value : Type} (contents : Contents) (read : String → Logged Misfit Value)
    (node : Node) : Logged ConfigFault Value := do
  let word ← Logged.ofExcept (textOf contents node)
  (read word).mapFault .unknownPolicy

/-- An entry may stand only once. -/
def once {Value : Type} (old : Option Value) (read : Logged ConfigFault Value) :
    Logged ConfigFault (Option Value) :=
  if old.isSome then .fail .malformed
  else do
    let value ← read
    return some value

/-- An entry that has to be there. -/
def required {Value : Type} : Option Value → Logged ConfigFault Value
  | some value => .done value
  | none => .fail .malformed

/-- The entries of a priority that have been read. -/
structure PriorityDraft where
  column : Option String := none
  order : Option (List String) := none
  groupBy : Option (Option (List String)) := none
  onMissing : Option OnMissing := none

def readPriorityEntry (contents : Contents) (draft : PriorityDraft) (entry : Node × Node) :
    Logged ConfigFault PriorityDraft := do
  let key ← Logged.ofExcept (textOf contents entry.1)
  match key with
  | "column" =>
      let column ← once draft.column (.ofExcept (textOf contents entry.2))
      return { draft with column := column }
  | "order" =>
      let order ← once draft.order (.ofExcept (texts contents entry.2))
      return { draft with order := order }
  | "group_by" =>
      let groupBy ← once draft.groupBy
        (optional contents (fun node => .ofExcept (texts contents node)) entry.2)
      return { draft with groupBy := groupBy }
  | "on_missing" =>
      let onMissing ← once draft.onMissing (policy contents OnMissing.parse entry.2)
      return { draft with onMissing := onMissing }
  | _ => Logged.fail .malformed

def readPriorityEntries (contents : Contents) :
    List (Node × Node) → PriorityDraft → Logged ConfigFault PriorityDraft
  | [], draft => .done draft
  | entry :: rest, draft => do
      let next ← readPriorityEntry contents draft entry
      readPriorityEntries contents rest next

def readPriority (contents : Contents) (node : Node) : Logged ConfigFault Priority := do
  let entries ← Logged.ofExcept (pairs contents node)
  let draft ← readPriorityEntries contents entries {}
  let column ← required draft.column
  let order ← required draft.order
  return ⟨column, order, draft.groupBy.join, draft.onMissing.getD .raise⟩

/-- The entries of a configuration that have been read. -/
structure Draft where
  pathPattern : Option String := none
  filePattern : Option String := none
  onParseError : Option OnParseError := none
  onEmpty : Option OnEmpty := none
  priority : Option (Option Priority) := none
  testPaths : Option (Option (List String)) := none

def readEntry (contents : Contents) (draft : Draft) (entry : Node × Node) :
    Logged ConfigFault Draft := do
  let key ← Logged.ofExcept (textOf contents entry.1)
  match key with
  | "path_pattern" =>
      let pattern ← once draft.pathPattern (.ofExcept (textOf contents entry.2))
      return { draft with pathPattern := pattern }
  | "file_pattern" =>
      let pattern ← once draft.filePattern (.ofExcept (textOf contents entry.2))
      return { draft with filePattern := pattern }
  | "on_parse_error" =>
      let value ← once draft.onParseError
        (policy contents (fun word => .ofExcept (OnParseError.parse word)) entry.2)
      return { draft with onParseError := value }
  | "on_empty" =>
      let value ← once draft.onEmpty
        (policy contents (fun word => .ofExcept (OnEmpty.parse word)) entry.2)
      return { draft with onEmpty := value }
  | "priority" =>
      let priority ← once draft.priority (optional contents (readPriority contents) entry.2)
      return { draft with priority := priority }
  | "test_paths" =>
      let paths ← once draft.testPaths
        (optional contents (fun node => .ofExcept (texts contents node)) entry.2)
      return { draft with testPaths := paths }
  | _ => Logged.fail .malformed

def readEntries (contents : Contents) :
    List (Node × Node) → Draft → Logged ConfigFault Draft
  | [], draft => .done draft
  | entry :: rest, draft => do
      let next ← readEntry contents draft entry
      readEntries contents rest next

/-- A configuration needs a pattern, and a priority needs a value to prefer. -/
def validate (config : Config) : Except ConfigFault Unit :=
  if config.pathPattern.isEmpty && config.filePattern.isEmpty then .error .emptyPatterns
  else match config.priority with
    | some priority =>
        if priority.order.isEmpty then .error (.emptyOrder priority.column) else .ok ()
    | none => .ok ()

/-- The configuration in the contents of a document; nothing may follow it. -/
def ofContents (contents : Contents) : Logged ConfigFault Config := do
  let entries ← Logged.ofExcept (pairs contents contents.root)
  let draft ← readEntries contents entries {}
  let pathPattern ← required draft.pathPattern
  let filePattern ← required draft.filePattern
  let config : Config :=
    ⟨pathPattern, filePattern, draft.onParseError.getD .raise, draft.onEmpty.getD .raise,
      draft.priority.join, draft.testPaths.join⟩
  if contents.complete then
    Logged.ofExcept config.validate
    return config
  else
    Logged.fail .malformed

/-- The configuration that a document's text describes. -/
def ofText (text : String) : Logged Failure Config :=
  (ofContents (Document.read text)).mapFault .invalidConfig

def ofFile (host : Host) (name : String) : Logged Failure Config :=
  match host.tree.read host.workingDirectory name with
  | .error obstacle => .fail (.invalidConfig (.unreadable name obstacle.reason))
  | .ok text => do
      Logged.note .debug s!"Loaded finder config from {name}"
      ofText text

def archive (config : Config) : Except Failure Archive :=
  Archive.compile config.pathPattern config.filePattern

/-- The configured paths are searched instead of the tree. -/
def provider (config : Config) (host : Host) : Provider :=
  match config.testPaths with
  | some paths => Provider.listed paths
  | none => host.provider

def options (config : Config) : FindOptions :=
  ⟨config.onParseError, config.onEmpty⟩

end Config

end PathCatalog
