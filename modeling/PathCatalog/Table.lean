import PathCatalog.Entries
import PathCatalog.Failure
import PathCatalog.Query

namespace PathCatalog

/-- A path with its values, in the order of the columns. -/
structure Row where
  path : String
  values : List String
  deriving DecidableEq, Repr

/-- The value in a column by its position. -/
def Row.cell (row : Row) (index : Nat) : String :=
  row.values.getD index ""

/-- The values in some columns. -/
def Row.cells (row : Row) (indices : List Nat) : List String :=
  indices.map row.cell

structure Table where
  columns : List String
  rows : List Row
  deriving DecidableEq, Repr

namespace Table

/-- Every row has a value for every column, and only a table without rows may repeat a column. -/
structure WellFormed (table : Table) : Prop where
  aligned : ∀ row ∈ table.rows, row.values.length = table.columns.length
  distinct : table.rows ≠ [] → table.columns.Nodup

def new (columns : List String) : Table :=
  ⟨columns, []⟩

/-- The first text that stands in the list before, after the seen ones. -/
def firstRepeated? (seen : List String) : List String → Option String
  | [] => none
  | text :: rest => if seen.contains text then some text else firstRepeated? (text :: seen) rest

/-- Columns have to be distinct and every row as long as the columns. -/
def fromRows (columns : List String) (rows : List Row) : Except Failure Table :=
  match firstRepeated? [] columns with
  | some column => .error (.misfit (.duplicateColumn column))
  | none =>
      match rows.find? fun row => row.values.length != columns.length with
      | some row => .error (.misfit (.rowWidth row.path row.values.length columns))
      | none => .ok ⟨columns, rows⟩

/-- The values of the columns in a record. -/
def recordValues (path : String) (fields : FieldMap) : List String → Except Failure (List String)
  | [] => .ok []
  | column :: rest =>
      match fields.get? column with
      | some value => (recordValues path fields rest).map (value :: ·)
      | none => .error (.misfit (.recordLacks path column))

/-- A record has to carry exactly the columns, in any order. -/
def recordRow (columns : List String) (record : String × FieldMap) : Except Failure Row :=
  if record.2.size ≠ columns.length then
    .error (.misfit (.recordFields record.1 record.2.names columns))
  else (recordValues record.1 record.2 columns).map fun values => ⟨record.1, values⟩

/-- The rows of some records; the first record that does not fit counts. -/
def recordRows (columns : List String) : List (String × FieldMap) → Except Failure (List Row)
  | [] => .ok []
  | record :: rest => do
      let row ← recordRow columns record
      let rows ← recordRows columns rest
      return row :: rows

/-- The table with one row per record. -/
def fromRecords (columns : List String) (records : List (String × FieldMap)) :
    Except Failure Table := do
  let rows ← recordRows columns records
  fromRows columns rows

def size (table : Table) : Nat :=
  table.rows.length

def isEmpty (table : Table) : Bool :=
  table.rows.isEmpty

def columnIndex (table : Table) (name : String) : Except Failure Nat :=
  match table.columns.idxOf? name with
  | some index => .ok index
  | none => .error (.misfit (.unknownColumn name table.columns))

/-- The positions of some columns; the first unknown one counts. -/
def columnIndices (table : Table) : List String → Except Failure (List Nat)
  | [] => .ok []
  | name :: rest => do
      let index ← table.columnIndex name
      let indices ← table.columnIndices rest
      return index :: indices

/-- The columns with the values of a row. -/
def fieldMap (table : Table) (row : Row) : FieldMap :=
  Entries.ofList (table.columns.zip row.values)

/-- The paths of the rows, each with the columns and its values. -/
def records (table : Table) : List (String × FieldMap) :=
  table.rows.map fun row => (row.path, table.fieldMap row)

def paths (table : Table) : List String :=
  table.rows.map Row.path

/-- The columns with the values of every row. -/
def metadata (table : Table) : List FieldMap :=
  table.rows.map table.fieldMap

def column (table : Table) (name : String) : Except Failure (List String) := do
  let index ← table.columnIndex name
  return table.rows.map fun row => row.cell index

/-- The row at an index; a negative one counts from the end. -/
def rowAt? (table : Table) (index : Int) : Option Row :=
  match index with
  | .ofNat position => table.rows[position]?
  | .negSucc before =>
      if before < table.rows.length then table.rows[table.rows.length - 1 - before]? else none

/-- One record by its index. -/
def get? (table : Table) (index : Int) : Option (String × FieldMap) :=
  (table.rowAt? index).map fun row => (row.path, table.fieldMap row)

/-- Where a range of rows begins or ends. -/
inductive Bound where
  | unbounded
  | included (index : Nat)
  | excluded (index : Nat)
  deriving DecidableEq, Repr

/-- Rows are counted in a machine word, which holds the numbers below this bound. -/
def indexBound : Nat := UInt64.size

/-- The index after another one; the greatest index has none after it and stays. -/
def nextIndex (index : Nat) : Nat :=
  min (index + 1) (indexBound - 1)

def Bound.first : Bound → Nat
  | .unbounded => 0
  | .included index => index
  | .excluded index => nextIndex index

/-- The first index after a range in a list of the given length. -/
def Bound.afterLast (length : Nat) : Bound → Nat
  | .unbounded => length
  | .included index => nextIndex index
  | .excluded index => index

/-- The rows in a range; bounds beyond the table are cut to it. -/
def slice (table : Table) (start finish : Bound) : Table :=
  let first := start.first
  let afterLast := finish.afterLast table.rows.length
  ⟨table.columns, (table.rows.drop first).take (afterLast - first)⟩

/-- The constraints of a query by the positions of their columns. -/
def conditions (table : Table) : List (String × Candidates) →
    Except Failure (List (Nat × Candidates))
  | [] => .ok []
  | (name, candidates) :: rest => do
      let index ← table.columnIndex name
      let others ← table.conditions rest
      return (index, candidates) :: others

/-- The rows that meet every constraint; an empty query picks none. -/
def search (table : Table) (query : Query) : Except Failure Table :=
  if query.isEmpty then .ok (new table.columns)
  else do
    let conditions ← table.conditions query.pairs
    return ⟨table.columns, table.rows.filter fun row =>
      conditions.all fun condition => condition.2.accepts (row.cell condition.1)⟩

/-- The values of some columns, or of all, joined row by row. -/
def combine (table : Table) (names : Option (List String)) (between : String) :
    Except Failure (List String) := do
  let indices ← match names with
    | some names => table.columnIndices names
    | none => .ok (List.range table.columns.length)
  return table.rows.map fun row => Text.joined between (row.cells indices)

def describe (table : Table) (row : Row) : String :=
  let fields := (table.columns.zip row.values).map fun pair => pair.1 ++ "=" ++ pair.2
  row.path ++ ": " ++ Text.joined ", " fields

/-- The rows whose values stand in a row before, after the seen ones. -/
def repeatedRows (seen : List (List String)) : List Row → List Row
  | [] => []
  | row :: rest =>
      if seen.contains row.values then row :: repeatedRows seen rest
      else repeatedRows (row.values :: seen) rest

/-- How many repeated rows a failure names. -/
def reportedDuplicates : Nat := 5

/-- No two rows may carry the same values, whatever their paths. -/
def ensureUnique (table : Table) : Except Failure Unit :=
  match (repeatedRows [] table.rows).take reportedDuplicates with
  | [] => .ok ()
  | duplicates => .error (.repeatedMetadata (duplicates.map table.describe))

/-- Every row with one more value. -/
def extendRows (rows : List Row) (values : List String) : List Row :=
  rows.zipWith (fun row value => ⟨row.path, row.values ++ [value]⟩) values

/-- The table with a new column at the end. -/
def withColumn (table : Table) (name : String) (values : List String) : Except Failure Table :=
  if table.columns.contains name then .error (.misfit (.columnExists name))
  else if values.length ≠ table.rows.length then
    .error (.misfit (.columnHeight name values.length table.rows.length))
  else .ok ⟨table.columns ++ [name], extendRows table.rows values⟩

end Table

end PathCatalog
