import Mathlib.Data.List.Nodup
import PathCatalog.Proofs.Table.Grouping
import PathCatalog.Table.Ensemble

namespace PathCatalog

/-- A row extends another one when it has its path and its values first. -/
structure Row.Extends (row origin : Row) : Prop where
  path : row.path = origin.path
  values : origin.values <+: row.values

namespace Table

/-- Every row has a value for every column. -/
def Aligned (table : Table) : Prop :=
  ∀ row ∈ table.rows, row.values.length = table.columns.length

instance (table : Table) : Decidable table.Aligned :=
  inferInstanceAs (Decidable (∀ row ∈ table.rows, _))

/-- A table descends from another one when its rows extend different rows of that table. -/
structure Descends (next table : Table) : Prop where
  columns : table.columns <+: next.columns
  distinct : table.columns.Nodup → next.columns.Nodup
  aligned : table.Aligned → next.Aligned
  rows : ∀ row ∈ next.rows, ∃ origin ∈ table.rows, row.Extends origin
  paths : table.paths.Nodup → next.paths.Nodup

namespace Descends

theorem refl (table : Table) : table.Descends table where
  columns := List.prefix_rfl
  distinct := id
  aligned := id
  rows row member := ⟨row, member, rfl, List.prefix_rfl⟩
  paths := id

theorem trans {last next table : Table} (later : last.Descends next)
    (before : next.Descends table) : last.Descends table where
  columns := before.columns.trans later.columns
  distinct := later.distinct ∘ before.distinct
  aligned := later.aligned ∘ before.aligned
  rows row member := by
    obtain ⟨middle, inside, extended⟩ := later.rows row member
    obtain ⟨origin, first, begun⟩ := before.rows middle inside
    exact ⟨origin, first, extended.path.trans begun.path, begun.values.trans extended.values⟩
  paths := later.paths ∘ before.paths

/-- Rows of the table, in any order, descend from it as long as no path comes twice. -/
theorem of_subset {table : Table} {rows : List Row} (subset : rows ⊆ table.rows)
    (paths : table.paths.Nodup → (rows.map Row.path).Nodup) :
    Descends ⟨table.columns, rows⟩ table where
  columns := List.prefix_rfl
  distinct := id
  aligned aligned row member := aligned row (subset member)
  rows row member := ⟨row, subset member, rfl, List.prefix_rfl⟩
  paths := paths

theorem of_sublist {table : Table} {rows : List Row} (sublist : rows.Sublist table.rows) :
    Descends ⟨table.columns, rows⟩ table :=
  of_subset sublist.subset fun distinct => distinct.sublist (sublist.map Row.path)

end Descends

theorem descends_of_search {table next : Table} {query : Query}
    (searched : table.search query = .ok next) : next.Descends table := by
  rw [search] at searched
  split at searched
  · cases searched
    exact .of_sublist (List.nil_sublist _)
  · obtain ⟨conditions, _, kept⟩ := bind_eq_ok.mp searched
    cases kept
    exact .of_sublist List.filter_sublist

theorem descends_slice (table : Table) (start finish : Bound) :
    (table.slice start finish).Descends table :=
  .of_sublist ((List.take_sublist _ _).trans (List.drop_sublist _ _))

theorem withColumn_eq_ok {table next : Table} {name : String} {values : List String} :
    table.withColumn name values = .ok next ↔
      name ∉ table.columns ∧ values.length = table.rows.length ∧
        next = ⟨table.columns ++ [name], extendRows table.rows values⟩ := by
  rw [withColumn]
  by_cases taken : name ∈ table.columns
  · simp [taken]
  · by_cases height : values.length = table.rows.length
    · simp [taken, height, eq_comm]
    · simp [taken, height]

theorem mem_extendRows {rows : List Row} {values : List String} {next : Row}
    (member : next ∈ extendRows rows values) :
    ∃ row ∈ rows, ∃ value, next = ⟨row.path, row.values ++ [value]⟩ := by
  rw [extendRows, ← List.map_uncurry_zip_eq_zipWith] at member
  obtain ⟨pair, inside, rfl⟩ := List.mem_map.mp member
  exact ⟨pair.1, (List.of_mem_zip inside).1, pair.2, rfl⟩

theorem paths_extendRows {rows : List Row} {values : List String}
    (height : values.length = rows.length) :
    (extendRows rows values).map Row.path = rows.map Row.path := by
  induction rows generalizing values with
  | nil => rfl
  | cons row rest ih =>
      cases values with
      | nil => cases height
      | cons value values =>
          have later : values.length = rest.length := Nat.succ.inj height
          exact congrArg (row.path :: ·) (ih later)

theorem descends_of_withColumn {table next : Table} {name : String} {values : List String}
    (added : table.withColumn name values = .ok next) : next.Descends table := by
  obtain ⟨new, height, rfl⟩ := withColumn_eq_ok.mp added
  constructor
  case columns => exact List.prefix_append _ _
  case distinct =>
    intro distinct
    rw [← List.concat_eq_append]
    exact List.Nodup.concat new distinct
  case aligned =>
    intro aligned row member
    obtain ⟨origin, inside, value, rfl⟩ := mem_extendRows member
    simp [aligned origin inside]
  case rows =>
    intro row member
    obtain ⟨origin, inside, value, rfl⟩ := mem_extendRows member
    exact ⟨origin, inside, rfl, List.prefix_append _ _⟩
  case paths =>
    intro distinct
    rwa [paths, paths_extendRows height]

end Table

namespace Priority

/-- Kept rows differ in their keys, so they are different rows and have different paths. -/
theorem descends_of_apply {priority : Priority} {table next : Table}
    (applied : (priority.apply table).outcome = .ok next) : next.Descends table := by
  obtain ⟨index, indices, kept, _, _, each, rfl⟩ := of_apply_eq_ok applied
  refine .of_subset (fun row member => mem_of_mem_kept each member) fun distinct => ?_
  -- the filter may change the order, so distinct paths are owed to distinct keys
  have led := (nodup_keys indices table.rows).sublist (sublist_keys each)
  refine List.Nodup.map_on (fun first here second there same => ?_) (List.Nodup.of_map _ led)
  exact List.inj_on_of_nodup_map distinct (mem_of_mem_kept each here)
    (mem_of_mem_kept each there) same

end Priority

namespace Ensemble

open Table

theorem descends_of_addColumns {parsed : List (List String)} {fields : List (String × Nat)}
    {table next : Table} (added : addColumns parsed fields table = .ok next) :
    next.Descends table := by
  induction fields generalizing table with
  | nil =>
      cases added
      exact .refl _
  | cons field rest ih =>
      obtain ⟨extended, first, later⟩ := bind_eq_ok.mp added
      exact (ih later).trans (descends_of_withColumn first)

theorem descends_of_parseLabels {table next : Table}
    (parsed : (parseLabels table).outcome = .ok next) : next.Descends table := by
  obtain ⟨labels, _, parsed⟩ := Logged.outcome_bind_eq_ok.mp parsed
  split at parsed
  · cases parsed
    exact .refl table
  · obtain ⟨template, _, parsed⟩ := Logged.outcome_bind_eq_ok.mp parsed
    obtain ⟨values, _, added⟩ := Logged.outcome_bind_eq_ok.mp parsed
    exact descends_of_addColumns added

theorem descends_of_numberMembers {table next : Table} {keys : Option (List String)}
    (numbered : numberMembers table keys = .ok next) : next.Descends table := by
  obtain ⟨indices, _, added⟩ := bind_eq_ok.mp numbered
  exact descends_of_withColumn added

end Ensemble

namespace Table

/-- The operations that make a table of a table. -/
inductive Operation where
  | search (query : Query)
  | slice (start finish : Bound)
  | withColumn (name : String) (values : List String)
  | filter (priority : Priority)
  | parseLabels
  | numberMembers (keys : Option (List String))
  | uniqueGrid

/-- What an operation does to a table. -/
def Operation.run : Operation → Table → Logged Failure Table
  | .search query, table => .ofExcept (table.search query)
  | .slice start finish, table => .done (table.slice start finish)
  | .withColumn name values, table => .ofExcept (table.withColumn name values)
  | .filter priority, table => priority.apply table
  | .parseLabels, table => Ensemble.parseLabels table
  | .numberMembers keys, table => .ofExcept (Ensemble.numberMembers table keys)
  | .uniqueGrid, table => Ensemble.uniqueGrid table

/-- One operation after the other, each on the table that the one before has made. -/
def runAll : List Operation → Table → Logged Failure Table
  | [], table => return table
  | operation :: rest, table => do
      let next ← operation.run table
      runAll rest next

/-- Every operation that succeeds makes a table that descends from the one it was given. -/
theorem descends_of_run {operation : Operation} {table next : Table}
    (ran : (operation.run table).outcome = .ok next) : next.Descends table := by
  cases operation with
  | search query => exact descends_of_search ran
  | slice start finish =>
      cases ran
      exact descends_slice table start finish
  | withColumn name values => exact descends_of_withColumn ran
  | filter priority => exact Priority.descends_of_apply ran
  | parseLabels => exact Ensemble.descends_of_parseLabels ran
  | numberMembers keys => exact Ensemble.descends_of_numberMembers ran
  | uniqueGrid => exact Priority.descends_of_apply ran

/-- So does every run of operations. -/
theorem descends_of_runAll {operations : List Operation} {table last : Table}
    (ran : (runAll operations table).outcome = .ok last) : last.Descends table := by
  induction operations generalizing table with
  | nil =>
      cases ran
      exact .refl _
  | cons operation rest ih =>
      obtain ⟨next, first, later⟩ := Logged.outcome_bind_eq_ok.mp ran
      exact (ih later).trans (descends_of_run first)

end Table

end PathCatalog
