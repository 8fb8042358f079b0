import PathCatalog.Policy
import PathCatalog.Table

namespace PathCatalog

/-- How rows that differ in one column are reduced to one. -/
structure Priority where
  column : String
  order : List String
  groupBy : Option (List String) := none
  onMissing : OnMissing := .raise
  deriving DecidableEq, Repr

namespace Priority

/-- The keys of the rows, each once, in the order in which they first occur after the seen ones. -/
def keysAfter (seen : List (List String)) (indices : List Nat) : List Row → List (List String)
  | [] => []
  | row :: rest =>
      let key := row.cells indices
      if seen.contains key then keysAfter seen indices rest
      else key :: keysAfter (key :: seen) indices rest

/-- The keys of the rows, each once, in the order in which they first occur. -/
def keys (indices : List Nat) (rows : List Row) : List (List String) :=
  keysAfter [] indices rows

/-- The rows that agree in some columns, group by group in the order of their first rows. -/
def groups (indices : List Nat) (rows : List Row) : List (List Row) :=
  (keys indices rows).map fun key => rows.filter fun row => row.cells indices == key

/-- The first preferred value that rows of the group carry, with those rows. -/
def selected? (index : Nat) (group : List Row) : List String → Option (String × List Row)
  | [] => none
  | value :: rest =>
      match group.filter fun row => row.cell index == value with
      | [] => selected? index group rest
      | hits => some (value, hits)

def describeGroup (table : Table) (group : List Row) : String :=
  Text.joined "\n" (group.map table.describe)

/-- A group without a preferred value is dropped unless the policy is to fail. -/
def missing (policy : OnMissing) (group : String) : Logged Failure (List Row) :=
  match policy with
  | .raise => .fail (.missingPriority group)
  | .warn => do
      Logged.note .warn s!"Did not find any element from the priority list for {group}"
      return []
  | .ignore => .done []

/-- The rows that stay of a group: its only row, or the only one with the preferred value. -/
def keep (priority : Priority) (table : Table) (index : Nat) (group : List Row) :
    Logged Failure (List Row) :=
  match group with
  | [only] => .done [only]
  | _ =>
      match selected? index group priority.order with
      | some (_, [hit]) => .done [hit]
      | some (value, _) =>
          .fail (.ambiguousPriority priority.column value (describeGroup table group))
      | none => missing priority.onMissing (describeGroup table group)

def position (priority : Priority) (table : Table) : Except Failure Nat :=
  match table.columns.idxOf? priority.column with
  | some index => .ok index
  | none => .error (.misfit (.priorityUnavailable priority.column))

/-- The positions of the grouping columns: those that are named, or all but the priority column. -/
def grouping (priority : Priority) (table : Table) (index : Nat) : Except Failure (List Nat) :=
  match priority.groupBy with
  | some names =>
      if names.contains priority.column then
        .error (.misfit (.priorityGroups priority.column))
      else table.columnIndices names
  | none => .ok ((List.range table.columns.length).filter (· != index))

/-- The table with one row per group, in the order of the groups; no group may be left twice. -/
def apply (priority : Priority) (table : Table) : Logged Failure Table := do
  let index ← Logged.ofExcept (priority.position table)
  let indices ← Logged.ofExcept (priority.grouping table index)
  let kept ← Logged.each (priority.keep table index) (groups indices table.rows)
  let rows := kept.flatten
  if (keys indices rows).length = rows.length then
    return ⟨table.columns, rows⟩
  else
    Logged.fail (.groupsLeft priority.column)

end Priority

end PathCatalog
