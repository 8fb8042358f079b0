import PathCatalog.Proofs.Table.Assembly
import PathCatalog.Proofs.Table.Checked
import PathCatalog.Proofs.Table.Descent

namespace PathCatalog.Table

/-- What is at hand after an operation: the table it made or, if it failed, the one it was given. -/
def Operation.after (operation : Operation) (table : Table) : Table :=
  match (operation.run table).outcome with
  | .ok next => next
  | .error _ => table

/-- The tables that come about from columns, rows or records by operations that succeed or fail. -/
inductive Reachable : Table → Prop where
  | new (columns : List String) : Reachable (.new columns)
  | rows {columns : List String} {rows : List Row} {table : Table}
      (made : fromRows columns rows = .ok table) : Reachable table
  | records {columns : List String} {records : List (String × FieldMap)} {table : Table}
      (made : fromRecords columns records = .ok table) : Reachable table
  | after {table : Table} (operation : Operation) (before : Reachable table) :
      Reachable (operation.after table)

/-- An operation with its look-ups by position checked. -/
def Operation.checked : Operation → Table → Logged Checked.Halt Table
  | .search query, table => Checked.search table query
  | .slice start finish, table => Checked.slice table start finish
  | .withColumn name values, table => Checked.plain (.ofExcept (table.withColumn name values))
  | .filter priority, table => Checked.apply priority table
  | .parseLabels, table => Checked.parseLabels table
  | .numberMembers keys, table => Checked.numberMembers table keys
  | .uniqueGrid, table => Checked.uniqueGrid table

variable {table next : Table}

theorem wellFormed_new (columns : List String) : (new columns).WellFormed where
  aligned := nofun
  distinct filled := absurd rfl filled

theorem wellFormed_of_fromRows {columns : List String} {rows : List Row}
    (made : fromRows columns rows = .ok table) : table.WellFormed := by
  obtain ⟨distinct, aligned, rfl⟩ := fromRows_eq_ok.mp made
  exact ⟨aligned, fun _ => distinct⟩

theorem wellFormed_of_fromRecords {columns : List String} {records : List (String × FieldMap)}
    (made : fromRecords columns records = .ok table) : table.WellFormed := by
  obtain ⟨rows, _, made⟩ := bind_eq_ok.mp made
  exact wellFormed_of_fromRows made

/-- A table with a row descends from one with a row, so its columns are still distinct. -/
theorem Descends.wellFormed (descends : next.Descends table) (before : table.WellFormed) :
    next.WellFormed where
  aligned := descends.aligned before.aligned
  distinct filled := by
    obtain ⟨row, member⟩ := List.exists_mem_of_ne_nil _ filled
    obtain ⟨origin, inside, _⟩ := descends.rows row member
    exact descends.distinct (before.distinct (List.ne_nil_of_mem inside))

theorem wellFormed_after (operation : Operation) (before : table.WellFormed) :
    (operation.after table).WellFormed := by
  unfold Operation.after
  cases ran : (operation.run table).outcome with
  | ok next => exact (descends_of_run ran).wellFormed before
  | error fault => exact before

theorem Reachable.wellFormed (reached : Reachable table) : table.WellFormed := by
  induction reached with
  | new columns => exact wellFormed_new columns
  | rows made => exact wellFormed_of_fromRows made
  | records made => exact wellFormed_of_fromRecords made
  | after operation _ ih => exact wellFormed_after operation ih

/-- In an aligned table every operation stays inside of its rows. -/
theorem Operation.sound (operation : Operation) (aligned : table.Aligned) :
    Checked.Sound (operation.checked table) (operation.run table) := by
  cases operation with
  | search query => exact (Checked.search_agrees aligned query).sound
  | slice start finish => exact (Checked.slice_agrees table start finish).sound
  | withColumn name values => exact (Checked.Agrees.refl _).sound
  | filter priority => exact (Checked.apply_agrees aligned priority).sound
  | parseLabels => exact (Checked.parseLabels_agrees aligned).sound
  | numberMembers keys => exact (Checked.numberMembers_agrees aligned keys).sound
  | uniqueGrid => exact (Checked.apply_agrees aligned _).sound

/-- There is a record at an index when it counts a row from the start or from the end. -/
theorem isSome_get?_iff (table : Table) (index : Int) :
    (table.get? index).isSome ↔ -(table.size : Int) ≤ index ∧ index < table.size := by
  rw [get?, Option.isSome_map, size]
  cases index with
  | ofNat position =>
      change (table.rows[position]?).isSome ↔ _
      rw [Option.isSome_iff_ne_none, Ne, List.getElem?_eq_none_iff, Int.ofNat_eq_natCast]
      omega
  | negSucc before =>
      change (if before < table.rows.length then table.rows[table.rows.length - 1 - before]?
        else none).isSome ↔ _
      split
      next inside =>
        rw [Option.isSome_iff_ne_none, Ne, List.getElem?_eq_none_iff]
        omega
      next beyond =>
        rw [Option.isSome_none]
        refine ⟨nofun, fun counted => ?_⟩
        omega

/-- Every table that comes about is well formed, and no operation on it looks anything up by a
position that is outside. -/
theorem inside_of_reachable (reached : Reachable table) :
    table.WellFormed ∧
      (∀ operation : Operation,
        Checked.Sound (operation.checked table) (operation.run table)) ∧
      (∀ name, Checked.Sound (Checked.column table name) (.ofExcept (table.column name))) ∧
      (∀ names between, Checked.Sound (Checked.combine table names between)
        (.ofExcept (table.combine names between))) ∧
      ∀ index, (table.get? index).isSome ↔ -(table.size : Int) ≤ index ∧ index < table.size := by
  have aligned : table.Aligned := reached.wellFormed.aligned
  refine ⟨reached.wellFormed, fun operation => operation.sound aligned, fun name => ?_,
    fun names between => ?_, table.isSome_get?_iff⟩
  · exact (Checked.column_agrees aligned name).sound
  · exact (Checked.combine_agrees aligned names between).sound

/-- Two labelled rows get a column, a second one of that name is refused, and a filter picks a row. -/
theorem inside_of_reachable_filtered :
    Reachable ⟨["model", "grid"], [⟨"b", ["x", "gn"]⟩]⟩ ∧
      WellFormed ⟨["model", "grid"], [⟨"b", ["x", "gn"]⟩]⟩ ∧
      Checked.Sound (Checked.uniqueGrid ⟨["model", "grid"], [⟨"b", ["x", "gn"]⟩]⟩)
        (Ensemble.uniqueGrid ⟨["model", "grid"], [⟨"b", ["x", "gn"]⟩]⟩) := by
  have made : fromRows ["model"] [⟨"a", ["x"]⟩, ⟨"b", ["x"]⟩] =
      .ok ⟨["model"], [⟨"a", ["x"]⟩, ⟨"b", ["x"]⟩]⟩ := rfl
  have reached : Reachable ⟨["model", "grid"], [⟨"b", ["x", "gn"]⟩]⟩ :=
    (((Reachable.rows made).after (.withColumn "grid" ["gr", "gn"])).after
      (.withColumn "grid" [])).after (.filter ⟨"grid", ["gn", "gr"], none, .raise⟩)
  exact ⟨reached, (inside_of_reachable reached).1, (inside_of_reachable reached).2.1 .uniqueGrid⟩

/-- A row that is too short does not come about: its missing value is outside. -/
example : (Checked.column ⟨["model", "grid"], [⟨"b", ["x"]⟩]⟩ "grid").outcome = .error .outside := rfl

end PathCatalog.Table
