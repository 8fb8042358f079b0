import Mathlib.Data.List.Forall2
import PathCatalog.Proofs.Outcome
import PathCatalog.Proofs.Table.Assembly
import PathCatalog.Table.Priority

namespace PathCatalog.Priority

/-- The keys that come after the seen ones are those of the rows that were not seen before. -/
theorem mem_keysAfter {seen : List (List String)} {indices : List Nat} {rows : List Row}
    {key : List String} :
    key ∈ keysAfter seen indices rows ↔ key ∉ seen ∧ ∃ row ∈ rows, row.cells indices = key := by
  induction rows generalizing seen with
  | nil => simp [keysAfter]
  | cons row rest ih =>
      rw [keysAfter]
      by_cases known : row.cells indices ∈ seen
      · rw [if_pos (by simpa using known), ih, List.exists_mem_cons_iff]
        refine and_congr_right fun fresh => (or_iff_right fun same => ?_).symm
        exact fresh (same ▸ known)
      · rw [if_neg (by simpa using known), List.mem_cons, ih, List.exists_mem_cons_iff]
        constructor
        · intro holds
          rcases holds with rfl | ⟨fresh, later⟩
          · exact ⟨known, .inl rfl⟩
          · exact ⟨fun before => fresh (List.mem_cons_of_mem _ before), .inr later⟩
        · intro holds
          obtain ⟨fresh, here | later⟩ := holds
          · exact .inl here.symm
          · by_cases same : key = row.cells indices
            · exact .inl same
            · exact .inr ⟨by simp [same, fresh], later⟩

theorem nodup_keysAfter (seen : List (List String)) (indices : List Nat) (rows : List Row) :
    (keysAfter seen indices rows).Nodup := by
  induction rows generalizing seen with
  | nil => exact List.nodup_nil
  | cons row rest ih =>
      rw [keysAfter]
      split
      · exact ih seen
      · exact List.nodup_cons.mpr ⟨fun again => (mem_keysAfter.mp again).1 List.mem_cons_self, ih _⟩

/-- Every group has its own key. -/
theorem nodup_keys (indices : List Nat) (rows : List Row) : (keys indices rows).Nodup :=
  nodup_keysAfter [] indices rows

theorem sublist_of_selected? {index : Nat} {group hits : List Row} {order : List String}
    {value : String} (selected : selected? index group order = some (value, hits)) :
    hits.Sublist group := by
  fun_induction selected? index group order with
  | case1 => cases selected
  | case2 preferred rest none ih => exact ih selected
  | case3 preferred rest some =>
      cases selected
      exact List.filter_sublist

/-- Of a group at most one row is kept. -/
theorem outcome_keep_eq_ok {priority : Priority} {table : Table} {index : Nat}
    {group kept : List Row} (reached : (priority.keep table index group).outcome = .ok kept) :
    kept = [] ∨ ∃ row ∈ group, kept = [row] := by
  rw [keep.eq_def] at reached
  split at reached
  next only =>
    cases reached
    exact .inr ⟨only, List.mem_singleton_self only, rfl⟩
  next =>
    split at reached
    next hit selected =>
      cases reached
      exact .inr ⟨hit, (sublist_of_selected? selected).subset (List.mem_singleton_self hit), rfl⟩
    next => cases reached
    next =>
      cases policy : priority.onMissing <;> rw [policy] at reached <;> cases reached
      all_goals exact .inl rfl

/-- What a filter that succeeds has done. -/
theorem of_apply_eq_ok {priority : Priority} {table result : Table}
    (applied : (priority.apply table).outcome = .ok result) :
    ∃ index indices kept, priority.position table = .ok index ∧
      priority.grouping table index = .ok indices ∧
      List.Forall₂ (fun group rows => (priority.keep table index group).outcome = .ok rows)
        (groups indices table.rows) kept ∧ result = ⟨table.columns, kept.flatten⟩ := by
  obtain ⟨index, placed, applied⟩ := Logged.outcome_bind_eq_ok.mp applied
  obtain ⟨indices, grouped, applied⟩ := Logged.outcome_bind_eq_ok.mp applied
  obtain ⟨kept, each, applied⟩ := Logged.outcome_bind_eq_ok.mp applied
  refine ⟨index, indices, kept, placed, grouped, Logged.outcome_each_eq_ok.mp each, ?_⟩
  dsimp only at applied
  split at applied
  · exact (Except.ok.inj applied).symm
  · cases applied

/-- The kept rows carry keys of the groups, each at most once and in the order of the groups. -/
theorem sublist_keys {priority : Priority} {table : Table} {index : Nat} {indices : List Nat}
    {kept : List (List Row)}
    (each : List.Forall₂ (fun group rows => (priority.keep table index group).outcome = .ok rows)
      (groups indices table.rows) kept) :
    (kept.flatten.map fun row => row.cells indices).Sublist (keys indices table.rows) := by
  rw [groups, List.forall₂_map_left_iff] at each
  generalize keys indices table.rows = leading at each
  -- a kept row carries the key of its group, and a group without a kept row skips its key
  induction each with
  | nil => exact List.nil_sublist _
  | @cons key rows keys kept reached _ ih =>
      rw [List.flatten_cons, List.map_append]
      rcases outcome_keep_eq_ok reached with rfl | ⟨row, member, rfl⟩
      · exact ih.cons key
      · have led : row.cells indices = key := by simpa using (List.mem_filter.mp member).2
        rw [List.map_singleton, led]
        exact ih.cons_cons key

/-- Every kept row is a row of the table. -/
theorem mem_of_mem_kept {priority : Priority} {table : Table} {index : Nat} {indices : List Nat}
    {kept : List (List Row)}
    (each : List.Forall₂ (fun group rows => (priority.keep table index group).outcome = .ok rows)
      (groups indices table.rows) kept) {row : Row} (member : row ∈ kept.flatten) :
    row ∈ table.rows := by
  obtain ⟨rows, inside, here⟩ := List.mem_flatten.mp member
  obtain ⟨group, grouped, reached⟩ := (mem_of_forall₂_ok each rows).mp inside
  obtain ⟨key, _, rfl⟩ := List.mem_map.mp grouped
  rcases outcome_keep_eq_ok reached with rfl | ⟨only, chosen, rfl⟩
  · cases here
  · rw [List.mem_singleton.mp here]
    exact List.mem_of_mem_filter chosen

end PathCatalog.Priority
