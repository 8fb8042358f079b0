/-
This file repeats the operations on tables with look-ups that stop at a position outside of a list.
-/

import PathCatalog.Table.Ensemble

namespace PathCatalog.Checked

variable {Item Value : Type}

/-- How a run that looks items up ends without a value. -/
inductive Halt where
  | outside
  | failed (cause : Failure)
  deriving DecidableEq, Repr

/-- A run that looks nothing up. -/
def plain (run : Logged Failure Value) : Logged Halt Value :=
  run.mapFault .failed

/-- No look-up of the checked run is outside, and it does what the run does. -/
def Sound (checked : Logged Halt Value) (run : Logged Failure Value) : Prop :=
  checked.outcome ≠ .error .outside ∧ checked = plain run

/-- The item at a position, which has to be there. -/
def item (items : List Item) (index : Nat) : Logged Halt Item :=
  match items[index]? with
  | some item => .done item
  | none => .fail .outside

/-- The items from a position to before another one; both have to be in order and in the list. -/
def range (items : List Item) (first afterLast : Nat) : Logged Halt (List Item) :=
  if first ≤ afterLast ∧ afterLast ≤ items.length then
    .done ((items.drop first).take (afterLast - first))
  else .fail .outside

/-- A position brought between two others, which have to be in order. -/
def clamped (lower upper position : Nat) : Logged Halt Nat :=
  if lower ≤ upper then .done (max lower (min position upper)) else .fail .outside

/-- The items that pass a test, in order. -/
def pick (test : Item → Logged Halt Bool) : List Item → Logged Halt (List Item)
  | [] => .done []
  | item :: rest => do
      let passed ← test item
      let others ← pick test rest
      return if passed then item :: others else others

def cell (row : Row) (index : Nat) : Logged Halt String :=
  item row.values index

def cells (row : Row) (indices : List Nat) : Logged Halt (List String) :=
  Logged.each (cell row) indices

def column (table : Table) (name : String) : Logged Halt (List String) := do
  let index ← plain (.ofExcept (table.columnIndex name))
  Logged.each (fun row => cell row index) table.rows

/-- The values of some columns, or of all, joined row by row. -/
def combine (table : Table) (names : Option (List String)) (between : String) :
    Logged Halt (List String) := do
  let indices ← plain (.ofExcept (match names with
    | some names => table.columnIndices names
    | none => .ok (List.range table.columns.length)))
  Logged.each (fun row => do
    let values ← cells row indices
    return Text.joined between values) table.rows

/-- Whether a row meets all conditions; the first that it does not meet is the last one tried. -/
def meets (row : Row) : List (Nat × Candidates) → Logged Halt Bool
  | [] => .done true
  | condition :: rest => do
      let value ← cell row condition.1
      if condition.2.accepts value then meets row rest else return false

def search (table : Table) (query : Query) : Logged Halt Table :=
  if query.isEmpty then .done (.new table.columns)
  else do
    let conditions ← plain (.ofExcept (table.conditions query.pairs))
    let rows ← pick (fun row => meets row conditions) table.rows
    return ⟨table.columns, rows⟩

/-- The rows in a range; bounds beyond the table are cut to it first. -/
def slice (table : Table) (start finish : Table.Bound) : Logged Halt Table := do
  let length := table.rows.length
  let first := min start.first length
  let afterLast ← clamped first length (finish.afterLast length)
  let rows ← range table.rows first afterLast
  return ⟨table.columns, rows⟩

/-- The positions of the rows, parted by their values at some positions. -/
def partition (indices : List Nat) (rows : List Row) : Logged Halt (List (List Nat)) := do
  let keys ← Logged.each (fun row => cells row indices) rows
  return keys.eraseDups.map fun key =>
    (keys.zipIdx.filter fun keyed => keyed.1 == key).map Prod.snd

/-- Whether the row at a position carries a value. -/
def carries (rows : List Row) (index : Nat) (value : String) (member : Nat) : Logged Halt Bool := do
  let row ← item rows member
  let carried ← cell row index
  return carried == value

/-- The first preferred value that rows of a group carry, with the positions of these rows. -/
def selected? (rows : List Row) (index : Nat) (members : List Nat) :
    List String → Logged Halt (Option (String × List Nat))
  | [] => .done none
  | value :: rest => do
      let hits ← pick (carries rows index value) members
      match hits with
      | [] => selected? rows index members rest
      | hits => return some (value, hits)

def describeGroup (table : Table) (members : List Nat) : Logged Halt String := do
  let group ← Logged.each (item table.rows) members
  return Priority.describeGroup table group

/-- The position with the preferred value, when it is the only one. -/
def choose (priority : Priority) (table : Table) (index : Nat) (members : List Nat) :
    Logged Halt (List Nat) := do
  let selected ← selected? table.rows index members priority.order
  match selected with
  | some (_, [hit]) => return [hit]
  | some (value, _) =>
      let group ← describeGroup table members
      plain (.fail (.ambiguousPriority priority.column value group))
  | none =>
      let group ← describeGroup table members
      let _ ← plain (Priority.missing priority.onMissing group)
      return []

/-- The positions that stay of a group. -/
def keep (priority : Priority) (table : Table) (index : Nat) (members : List Nat) :
    Logged Halt (List Nat) :=
  match members with
  | [only] => .done [only]
  | _ => choose priority table index members

def apply (priority : Priority) (table : Table) : Logged Halt Table := do
  let index ← plain (.ofExcept (priority.position table))
  let indices ← plain (.ofExcept (priority.grouping table index))
  let groups ← partition indices table.rows
  let kept ← Logged.each (keep priority table index) groups
  let rows ← Logged.each (item table.rows) kept.flatten
  let regrouped ← partition indices rows
  if regrouped.length = rows.length then
    return ⟨table.columns, rows⟩
  else plain (.fail (.groupsLeft priority.column))

/-- One column per field, with the values at the field's position. -/
def addColumns (parsed : List (List String)) : List (String × Nat) → Table → Logged Halt Table
  | [], table => .done table
  | field :: rest, table => do
      let values ← Logged.each (fun values => item values field.2) parsed
      let extended ← plain (.ofExcept (table.withColumn field.1 values))
      addColumns parsed rest extended

def parseLabels (table : Table) : Logged Halt Table := do
  let labels ← column table Ensemble.labelColumn
  match labels with
  | [] => return table
  | first :: _ =>
      let form := if first.toList.contains 'f' then Ensemble.fourPart else Ensemble.threePart
      let template ← plain (.ofExcept (Template.compile form))
      let parsed ← plain (Logged.each template.parseValues labels)
      addColumns parsed template.fields.zipIdx table

/-- The members of each group numbered from zero; the groups are read from whole columns. -/
def numberMembers (table : Table) (keys : Option (List String)) : Logged Halt Table := do
  let columns ← Logged.each (column table) (keys.getD Ensemble.ensembleKeys)
  let groups ← Logged.each (fun position => Logged.each (fun values => item values position) columns)
    (List.range table.rows.length)
  let numbers := Ensemble.occurrences [] groups
  plain (.ofExcept (table.withColumn Ensemble.numberColumn (numbers.map toString)))

def uniqueGrid (table : Table) : Logged Halt Table :=
  apply ⟨"grid", Ensemble.gridOrder, some Ensemble.simulationKeys, .raise⟩ table

end PathCatalog.Checked
