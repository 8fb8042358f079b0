import Mathlib.Data.List.Forall2
import PathCatalog.Proofs.Entries
import PathCatalog.Proofs.Outcome
import PathCatalog.Table

namespace PathCatalog.Table

/-- The value of a row in a column by the name of the column. -/
def value (table : Table) (row : Row) (name : String) : String :=
  row.cell (table.columns.idxOf name)

/-- Whether a row has an accepted value for every constraint. -/
def meets (table : Table) (query : Query) (row : Row) : Bool :=
  query.pairs.all fun pair => pair.2.accepts (table.value row pair.1)

theorem meets_eq_true {table : Table} {query : Query} {row : Row} :
    table.meets query row = true ↔
      ∀ pair ∈ query.pairs, pair.2.accepts (table.value row pair.1) = true :=
  List.all_eq_true

/-- A column is where its name first occurs. -/
theorem columnIndex_of_mem {table : Table} {name : String} (column : name ∈ table.columns) :
    table.columnIndex name = .ok (table.columns.idxOf name) := by
  rw [columnIndex, idxOf?_of_mem column]

/-- The values of a column are read row by row. -/
theorem column_of_mem {table : Table} {name : String} (column : name ∈ table.columns) :
    table.column name = .ok (table.rows.map fun row => table.value row name) := by
  rw [Table.column, columnIndex_of_mem column]
  rfl

theorem columnIndex_eq_ok {table : Table} {name : String} {index : Nat} :
    table.columnIndex name = .ok index ↔ name ∈ table.columns ∧ table.columns.idxOf name = index := by
  by_cases column : name ∈ table.columns
  · simp [columnIndex_of_mem column, column]
  · have absent : table.columns.idxOf? name = none := List.idxOf?_eq_none_iff.mpr column
    simp [columnIndex, absent, column]

/-- Columns are looked up together when all of them are there. -/
theorem columnIndices_eq_ok {table : Table} {names : List String} {indices : List Nat} :
    table.columnIndices names = .ok indices ↔
      (∀ name ∈ names, name ∈ table.columns) ∧
        (names.map fun name => table.columns.idxOf name) = indices := by
  induction names generalizing indices with
  | nil => simp [columnIndices]
  | cons name rest ih =>
      rw [columnIndices, bind_eq_ok]
      simp only [bind_eq_ok, columnIndex_eq_ok, ih, pure, Except.pure, Except.ok.injEq]
      constructor
      · intro holds
        obtain ⟨index, ⟨column, here⟩, others, ⟨columns, later⟩, rfl⟩ := holds
        exact ⟨List.forall_mem_cons.mpr ⟨column, columns⟩, by rw [List.map_cons, here, later]⟩
      · intro holds
        obtain ⟨columns, same⟩ := holds
        obtain ⟨column, others⟩ := List.forall_mem_cons.mp columns
        exact ⟨_, ⟨column, rfl⟩, _, ⟨others, rfl⟩, same⟩

/-- Constraints on columns are looked up by the positions of the columns. -/
theorem conditions_eq_ok {table : Table} {pairs : List (String × Candidates)}
    (known : ∀ pair ∈ pairs, pair.1 ∈ table.columns) :
    table.conditions pairs = .ok (pairs.map fun pair => (table.columns.idxOf pair.1, pair.2)) := by
  induction pairs with
  | nil => rfl
  | cons pair rest ih =>
      obtain ⟨here, later⟩ := List.forall_mem_cons.mp known
      rw [conditions, columnIndex_of_mem here, ih later]
      rfl

/-- A search with constraints on columns only keeps the rows that meet them, in order. -/
theorem search_eq {table : Table} {query : Query} (asked : query.isEmpty = false)
    (known : ∀ pair ∈ query.pairs, pair.1 ∈ table.columns) :
    table.search query = .ok ⟨table.columns, table.rows.filter (table.meets query)⟩ := by
  have same (row : Row) : (query.pairs.map fun pair => (table.columns.idxOf pair.1, pair.2)).all
      (fun condition => condition.2.accepts (row.cell condition.1)) = table.meets query row := by
    rw [List.all_map]
    rfl
  simp only [search, asked, conditions_eq_ok known, bind, Except.bind, same]
  rfl

/-- The value in a column is the one that the row's record has for it. -/
theorem get?_fieldMap {table : Table} {row : Row} {name : String}
    (distinct : table.columns.Nodup) (aligned : row.values.length = table.columns.length)
    (column : name ∈ table.columns) :
    (table.fieldMap row).get? name = some (table.value row name) := by
  have inside : table.columns.idxOf name < row.values.length := by
    rw [aligned]
    exact List.idxOf_lt_length_of_mem column
  rw [fieldMap, Entries.get?_ofList_zip distinct, idxOf?_of_mem column, Option.bind_some, value,
    Row.cell, List.getD_eq_getElem?_getD, List.getElem?_eq_getElem inside]
  rfl

end PathCatalog.Table
