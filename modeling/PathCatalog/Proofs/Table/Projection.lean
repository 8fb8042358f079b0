import Mathlib.Data.List.Nodup
import PathCatalog.Proofs.Table.Grouping

namespace PathCatalog

/-- Only an unknown column keeps columns from being looked up. -/
theorem Table.of_columnIndices_eq_error {table : Table} {names : List String} {fault : Failure}
    (failed : table.columnIndices names = .error fault) :
    ∃ name ∈ names, fault = .misfit (.unknownColumn name table.columns) := by
  induction names with
  | nil => cases failed
  | cons name rest ih =>
      rcases bind_eq_error.mp failed with here | ⟨index, _, later⟩
      · unfold columnIndex at here
        split at here
        · cases here
        · exact ⟨name, List.mem_cons_self, (Except.error.inj here).symm⟩
      · rcases bind_eq_error.mp later with others | ⟨indices, _, impossible⟩
        · obtain ⟨other, member, same⟩ := ih others
          exact ⟨other, List.mem_cons_of_mem _ member, same⟩
        · cases impossible

/-- Where columns are depends on the columns only. -/
theorem Table.columnIndices_of_columns {table other : Table} (same : other.columns = table.columns)
    (names : List String) : other.columnIndices names = table.columnIndices names := by
  have one (name : String) : other.columnIndex name = table.columnIndex name := by
    rw [columnIndex, columnIndex, same]
  induction names with
  | nil => rfl
  | cons name rest ih => rw [columnIndices, columnIndices, one, ih]

namespace Priority

section Distinct

variable {indices : List Nat} {rows : List Row}

theorem keysAfter_of_nodup {seen : List (List String)}
    (distinct : (rows.map fun row => row.cells indices).Nodup)
    (fresh : ∀ row ∈ rows, row.cells indices ∉ seen) :
    keysAfter seen indices rows = rows.map fun row => row.cells indices := by
  induction rows generalizing seen with
  | nil => rfl
  | cons row rest ih =>
      have new : row.cells indices ∉ seen := fresh row List.mem_cons_self
      rw [List.map_cons, List.nodup_cons] at distinct
      have later : ∀ other ∈ rest, other.cells indices ∉ row.cells indices :: seen := by
        intro other member again
        rcases List.mem_cons.mp again with same | before
        · apply distinct.1
          rw [← same]
          exact List.mem_map_of_mem member
        · exact fresh other (List.mem_cons_of_mem _ member) before
      simp [keysAfter, new, ih distinct.2 later]

/-- Rows that differ in their keys lead one group each. -/
theorem keys_of_nodup (distinct : (rows.map fun row => row.cells indices).Nodup) :
    keys indices rows = rows.map fun row => row.cells indices := by
  apply keysAfter_of_nodup distinct
  simp

theorem length_keys_of_nodup (distinct : (rows.map fun row => row.cells indices).Nodup) :
    (keys indices rows).length = rows.length := by
  rw [keys_of_nodup distinct, List.length_map]

theorem filter_key_of_nodup (distinct : (rows.map fun row => row.cells indices).Nodup) {row : Row}
    (member : row ∈ rows) :
    rows.filter (fun other => other.cells indices == row.cells indices) = [row] := by
  have alone : rows.count row = 1 :=
    List.count_eq_one_of_mem (List.Nodup.of_map _ distinct) member
  have same : ∀ other ∈ rows, (other.cells indices == row.cells indices) = (other == row) := by
    intro other inside
    rw [Bool.eq_iff_iff, beq_iff_eq, beq_iff_eq]
    exact ⟨List.inj_on_of_nodup_map distinct inside member, fun equal => by rw [equal]⟩
  rw [List.filter_congr same, List.filter_beq, alone]
  rfl

theorem groups_of_nodup (distinct : (rows.map fun row => row.cells indices).Nodup) :
    groups indices rows = rows.map fun row => [row] := by
  rw [groups, keys_of_nodup distinct, List.map_map]
  apply List.map_congr_left
  intro row member
  exact filter_key_of_nodup distinct member

end Distinct

variable {priority : Priority} {table : Table} {index : Nat} {indices : List Nat}

theorem grouping_of_columns {other : Table} (same : other.columns = table.columns) :
    priority.grouping other index = priority.grouping table index := by
  simp only [grouping, Table.columnIndices_of_columns same, same]

/-- A table whose rows differ in their keys is left as it is, without any event. -/
theorem apply_of_nodup (placed : priority.position table = .ok index)
    (grouped : priority.grouping table index = .ok indices)
    (distinct : (table.rows.map fun row => row.cells indices).Nodup) :
    priority.apply table = .done table := by
  have alone : Logged.each (priority.keep table index) (groups indices table.rows) =
      .done (table.rows.map fun row => [row]) := by
    rw [groups_of_nodup distinct]
    exact Logged.each_map_eq_done fun row _ => rfl
  have joined : (table.rows.map fun row => [row]).flatten = table.rows := by
    rw [← List.flatMap_def, List.flatMap_singleton']
  rw [apply, placed, Logged.ofExcept_ok_bind, grouped, Logged.ofExcept_ok_bind, alone,
    Logged.done_bind]
  dsimp only
  rw [joined, if_pos (length_keys_of_nodup distinct)]
  rfl

/-- The rows that a filter keeps differ in their keys. -/
theorem nodup_kept {kept : List (List Row)}
    (each : List.Forall₂ (fun group rows => (priority.keep table index group).outcome = .ok rows)
      (groups indices table.rows) kept) :
    (kept.flatten.map fun row => row.cells indices).Nodup :=
  (nodup_keys indices table.rows).sublist (sublist_keys each)

theorem of_position_eq_error {fault : Failure} (failed : priority.position table = .error fault) :
    fault = .misfit (.priorityUnavailable priority.column) := by
  unfold position at failed
  split at failed
  · cases failed
  · exact (Except.error.inj failed).symm

theorem of_grouping_eq_error {fault : Failure}
    (failed : priority.grouping table index = .error fault) : ∃ cause, fault = .misfit cause := by
  unfold grouping at failed
  split at failed
  · split at failed
    · exact ⟨_, (Except.error.inj failed).symm⟩
    · obtain ⟨name, _, same⟩ := Table.of_columnIndices_eq_error failed
      exact ⟨_, same⟩
  · cases failed

/-- A group fails when its preferred value is carried twice, or strictly when there is none. -/
theorem of_keep_eq_error {group : List Row} {fault : Failure}
    (failed : (priority.keep table index group).outcome = .error fault) :
    (∃ value, fault = .ambiguousPriority priority.column value (describeGroup table group)) ∨
      fault = .missingPriority (describeGroup table group) := by
  rw [keep.eq_def] at failed
  split at failed
  next => cases failed
  next =>
    split at failed
    next => cases failed
    next value _ _ _ => exact .inl ⟨value, (Except.error.inj failed).symm⟩
    next =>
      cases policy : priority.onMissing <;> rw [policy] at failed
      case raise => exact .inr (Except.error.inj failed).symm
      all_goals cases failed

/-- A filter fails on its settings or on one of the groups, and in no other way. -/
theorem of_apply_eq_error {fault : Failure} (failed : (priority.apply table).outcome = .error fault) :
    (∃ cause, fault = .misfit cause) ∨
      (∃ value group, fault = .ambiguousPriority priority.column value group) ∨
      ∃ group, fault = .missingPriority group := by
  rcases Logged.outcome_bind_eq_error.mp failed with unplaced | ⟨index, _, failed⟩
  · exact .inl ⟨_, of_position_eq_error unplaced⟩
  rcases Logged.outcome_bind_eq_error.mp failed with ungrouped | ⟨indices, _, failed⟩
  · exact .inl (of_grouping_eq_error ungrouped)
  rcases Logged.outcome_bind_eq_error.mp failed with unsettled | ⟨kept, reached, failed⟩
  · obtain ⟨group, _, one⟩ := Logged.of_each_eq_error unsettled
    rcases of_keep_eq_error one with ⟨value, same⟩ | same
    · exact .inr (.inl ⟨value, _, same⟩)
    · exact .inr (.inr ⟨_, same⟩)
  · have counted := length_keys_of_nodup (nodup_kept (Logged.outcome_each_eq_ok.mp reached))
    simp [counted] at failed

/-- A filter leaves one row per group, and the same filter returns that table unchanged and without
an event. -/
theorem apply_projects (priority : Priority) (table : Table) :
    (∀ column, (priority.apply table).outcome ≠ .error (.groupsLeft column)) ∧
      ∀ result, (priority.apply table).outcome = .ok result →
        (∃ index indices, priority.position result = .ok index ∧
          priority.grouping result index = .ok indices ∧
          (result.rows.map fun row => row.cells indices).Nodup) ∧
        ∀ policy, ({ priority with onMissing := policy } : Priority).apply result =
          .done result := by
  constructor
  · intro column failed
    rcases of_apply_eq_error failed with ⟨_, same⟩ | ⟨_, _, same⟩ | ⟨_, same⟩ <;> cases same
  · intro result applied
    obtain ⟨index, indices, kept, placed, grouped, each, rfl⟩ := of_apply_eq_ok applied
    have distinct := nodup_kept each
    have again : priority.grouping ⟨table.columns, kept.flatten⟩ index = .ok indices := by
      rw [← grouped]
      exact grouping_of_columns rfl
    refine ⟨⟨index, indices, placed, again, distinct⟩, fun policy => ?_⟩
    exact apply_of_nodup placed again distinct

/-- Two groups of two rows and one of one row, reduced once and then left alone. -/
theorem apply_projects_three_groups :
    (⟨"res", ["h", "d"], none, .warn⟩ : Priority).apply
        ⟨["model", "number", "res"],
          [⟨"e", ["a", "1", "h"]⟩, ⟨"d", ["b", "1", "d"]⟩, ⟨"c", ["a", "2", "x"]⟩]⟩ =
      .done ⟨["model", "number", "res"],
          [⟨"e", ["a", "1", "h"]⟩, ⟨"d", ["b", "1", "d"]⟩, ⟨"c", ["a", "2", "x"]⟩]⟩ :=
  ((apply_projects ⟨"res", ["h", "d"], none, .raise⟩
    ⟨["model", "number", "res"],
      [⟨"a", ["a", "1", "d"]⟩, ⟨"b", ["b", "1", "x"]⟩, ⟨"c", ["a", "2", "x"]⟩,
        ⟨"d", ["b", "1", "d"]⟩, ⟨"e", ["a", "1", "h"]⟩]⟩).2 _ (by decide +kernel)).2 .warn

end Priority

end PathCatalog
