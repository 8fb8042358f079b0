import PathCatalog.Table.Priority

namespace PathCatalog.Ensemble

def labelColumn : String := "ens"

/-- Labels of realization, initialization and physics, such as `r1i1p1`. -/
def threePart : String := "r\x7br:d\x7di\x7bi:d\x7dp\x7bp:d\x7d"

/-- Labels with a forcing as well, such as `r1i1p1f1`. -/
def fourPart : String := "r\x7br:d\x7di\x7bi:d\x7dp\x7bp:d\x7df\x7bf:d\x7d"

/-- Columns that identify a simulation but for the member. -/
def ensembleKeys : List String :=
  ["exp", "table", "varn", "model"]

/-- Columns that identify a simulation. -/
def simulationKeys : List String :=
  ["exp", "table", "varn", "model", "ens"]

/-- Grid labels in order of preference. -/
def gridOrder : List String :=
  ["gn", "gr", "gr1", "gm"]

/-- One column per field, with the values at the field's position. -/
def addColumns (parsed : List (List String)) :
    List (String × Nat) → Table → Except Failure Table
  | [], table => .ok table
  | (field, index) :: rest, table => do
      let extended ← table.withColumn field (parsed.map fun values => values.getD index "")
      addColumns parsed rest extended

/-- The parts of the labels as columns; the first label decides how many parts all labels have. -/
def parseLabels (table : Table) : Logged Failure Table := do
  let labels ← Logged.ofExcept (table.column labelColumn)
  match labels with
  | [] => return table
  | first :: _ =>
      let form := if first.toList.contains 'f' then fourPart else threePart
      let template ← Logged.ofExcept (Template.compile form)
      let parsed ← Logged.each template.parseValues labels
      Logged.ofExcept (addColumns parsed template.fields.zipIdx table)

/-- What the counter of a key shows; a key without a counter was not met. -/
def counterOf (counters : List (List String × Nat)) (key : List String) : Nat :=
  (counters.lookup key).getD 0

/-- The counters with the one of a key raised; a key without a counter gets one. -/
def raise (key : List String) : List (List String × Nat) → List (List String × Nat)
  | [] => [(key, 1)]
  | counter :: rest =>
      if counter.1 = key then (key, counter.2 + 1) :: rest else counter :: raise key rest

/-- One pass over the keys: each is numbered with its counter, which is raised afterwards. -/
def occurrences (counters : List (List String × Nat)) : List (List String) → List Nat
  | [] => []
  | key :: rest => counterOf counters key :: occurrences (raise key counters) rest

def numberColumn : String := "ensnumber"

/-- The members of each group numbered from zero, in the order of the rows. -/
def numberMembers (table : Table) (keys : Option (List String)) : Except Failure Table := do
  let indices ← table.columnIndices (keys.getD ensembleKeys)
  let numbers := occurrences [] (table.rows.map fun row => row.cells indices)
  table.withColumn numberColumn (numbers.map toString)

/-- One grid per simulation, the preferred one. -/
def uniqueGrid (table : Table) : Logged Failure Table :=
  Priority.apply ⟨"grid", gridOrder, some simulationKeys, .raise⟩ table

end PathCatalog.Ensemble
