import PathCatalog.Table.Priority

namespace PathCatalog.Priority

/-- A priority or grouping column is not in the table, or the filter groups by the priority
column. -/
def Unsuited (priority : Priority) (table : Table) : Prop :=
  priority.column ∉ table.columns ∨
    ∃ names, priority.groupBy = some names ∧
      (priority.column ∈ names ∨ ∃ name ∈ names, name ∉ table.columns)

/-- Where the priority column stands. -/
def ranking (priority : Priority) (table : Table) : Nat :=
  table.columns.idxOf priority.column

/-- Where the grouping columns stand: those that are named, or all but the priority column. -/
def shared (priority : Priority) (table : Table) : List Nat :=
  match priority.groupBy with
  | some names => names.map fun name => table.columns.idxOf name
  | none => (List.range table.columns.length).filter (· != priority.ranking table)

/-- Rows agree when they have the same values in some columns. -/
def Agree (indices : List Nat) (row other : Row) : Prop :=
  ∀ index ∈ indices, row.cell index = other.cell index

instance (indices : List Nat) (row other : Row) : Decidable (Agree indices row other) :=
  inferInstanceAs (Decidable (∀ index ∈ indices, _))

/-- The first row leads the group of the rows that agree with it; the others make groups after it. -/
inductive Grouped (indices : List Nat) : List Row → List (List Row) → Prop where
  | none : Grouped indices [] []
  | first {row : Row} {rest : List Row} {groups : List (List Row)}
      (others : Grouped indices (rest.filter fun other => ¬ Agree indices row other) groups) :
      Grouped indices (row :: rest)
        ((row :: rest.filter fun other => Agree indices row other) :: groups)

/-- The rows of a group that carry a value in the priority column. -/
def carriers (index : Nat) (group : List Row) (value : String) : List Row :=
  group.filter fun row => row.cell index == value

/-- The selected value of a group is the first preferred one that some row of it carries. -/
def Selects (priority : Priority) (index : Nat) (group : List Row) (value : String) : Prop :=
  ∃ before after, priority.order = before ++ value :: after ∧
    carriers index group value ≠ [] ∧ ∀ earlier ∈ before, carriers index group earlier = []

/-- A group of several rows lacks a selected value when no row carries a preferred one. -/
def Lacks (priority : Priority) (index : Nat) (group : List Row) : Prop :=
  2 ≤ group.length ∧ ∀ value ∈ priority.order, carriers index group value = []

instance {index : Nat} {group : List Row} (priority : Priority) :
    Decidable (priority.Lacks index group) :=
  inferInstanceAs (Decidable (_ ∧ ∀ value ∈ priority.order, _))

/-- What stays of a group that does not make the filter fail. -/
inductive Keeps (priority : Priority) (index : Nat) : List Row → List Row → Prop where
  | alone (row : Row) : Keeps priority index [row] [row]
  | selected {group : List Row} {value : String} {row : Row} (several : 2 ≤ group.length)
      (selects : priority.Selects index group value) (only : carriers index group value = [row]) :
      Keeps priority index group [row]
  | dropped {group : List Row} (lacks : priority.Lacks index group)
      (tolerant : priority.onMissing ≠ .raise) : Keeps priority index group []

/-- How a group of several rows makes the filter fail. -/
inductive Fails (priority : Priority) (table : Table) (index : Nat) : List Row → Failure → Prop where
  | ambiguous {group : List Row} {value : String} (several : 2 ≤ group.length)
      (selects : priority.Selects index group value)
      (repeated : 2 ≤ (carriers index group value).length) :
      Fails priority table index group
        (.ambiguousPriority priority.column value (describeGroup table group))
  | missing {group : List Row} (lacks : priority.Lacks index group)
      (strict : priority.onMissing = .raise) :
      Fails priority table index group (.missingPriority (describeGroup table group))

/-- What is said of a group that is dropped. -/
def notice (table : Table) (group : List Row) : String :=
  let described := describeGroup table group
  s!"Did not find any element from the priority list for {described}"

end PathCatalog.Priority
