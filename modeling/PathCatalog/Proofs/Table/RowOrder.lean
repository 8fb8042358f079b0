import Mathlib.Data.List.Perm.Basic
import PathCatalog.Proofs.Table.Preference

namespace PathCatalog.Priority

variable {priority : Priority} {table other : Table} {index : Nat} {indices : List Nat}

section Group

variable {group twin kept : List Row} {value : String}

theorem carriers_perm (same : group.Perm twin) (index : Nat) (value : String) :
    (carriers index group value).Perm (carriers index twin value) :=
  same.filter _

theorem carriers_eq_nil_iff_of_perm (same : group.Perm twin) :
    carriers index group value = [] ↔ carriers index twin value = [] := by
  rw [← List.length_eq_zero_iff, ← List.length_eq_zero_iff,
    (carriers_perm same index value).length_eq]

theorem Selects.of_perm (same : group.Perm twin) (selects : priority.Selects index group value) :
    priority.Selects index twin value := by
  obtain ⟨before, after, order, carried, passed⟩ := selects
  refine ⟨before, after, order, ?_, fun earlier member => ?_⟩
  · exact mt (carriers_eq_nil_iff_of_perm same).mpr carried
  · exact (carriers_eq_nil_iff_of_perm same).mp (passed earlier member)

theorem Lacks.of_perm (same : group.Perm twin) (lacks : priority.Lacks index group) :
    priority.Lacks index twin := by
  obtain ⟨several, absent⟩ := lacks
  refine ⟨same.length_eq ▸ several, fun value member => ?_⟩
  exact (carriers_eq_nil_iff_of_perm same).mp (absent value member)

/-- Of the same rows the same is kept. -/
theorem Keeps.of_perm (same : group.Perm twin) (keeps : priority.Keeps index group kept) :
    priority.Keeps index twin kept := by
  cases keeps with
  | alone row =>
      obtain rfl := List.singleton_perm.mp same
      exact .alone row
  | @selected _ value row several selects only =>
      have carried := carriers_perm same index value
      rw [only, List.singleton_perm] at carried
      exact .selected (same.length_eq ▸ several) (selects.of_perm same) carried.symm
  | dropped lacks tolerant => exact .dropped (lacks.of_perm same) tolerant

/-- The table is only needed to describe a group that fails. -/
theorem outcome_keep_of_perm (other : Table) (same : group.Perm twin)
    (reached : (priority.keep table index group).outcome = .ok kept) :
    (priority.keep other index twin).outcome = .ok kept := by
  by_cases filled : group = []
  · subst filled
    rw [List.nil_perm.mp same]
    exact reached
  · rcases keeps_or_fails table filled with ⟨rows, keeps⟩ | ⟨fault, fails⟩
    · obtain rfl : rows = kept := Except.ok.inj ((keep_of_keeps table keeps).1.symm.trans reached)
      exact (keep_of_keeps other (keeps.of_perm same)).1
    · rw [keep_of_fails fails] at reached
      cases reached

end Group

/-- Rows in another order lead groups with the same keys. -/
theorem keys_perm {rows others : List Row} (same : rows.Perm others) (indices : List Nat) :
    (keys indices rows).Perm (keys indices others) := by
  refine (List.perm_ext_iff_of_nodup (nodup_keys indices rows) (nodup_keys indices others)).mpr ?_
  intro key
  simp only [keys, mem_keysAfter, same.mem_iff]

/-- What is kept of all groups is kept of the groups of the same rows in another order. -/
theorem exists_kept_of_perm (same : table.rows.Perm other.rows) {kept : List (List Row)}
    (each : List.Forall₂ (fun group rows => (priority.keep table index group).outcome = .ok rows)
      (groups indices table.rows) kept) :
    ∃ again, List.Forall₂ (fun group rows => (priority.keep other index group).outcome = .ok rows)
      (groups indices other.rows) again ∧ again.Perm kept := by
  rw [groups, List.forall₂_map_left_iff] at each
  obtain ⟨again, reached, permuted⟩ := List.perm_comp_forall₂ (keys_perm same.symm indices) each
  refine ⟨again, List.forall₂_map_left_iff.mpr (reached.imp fun key rows one => ?_), permuted⟩
  exact outcome_keep_of_perm other (same.filter _) one

/-- The settings are read off the columns, so the rows have no part in them. -/
theorem settings_of_columns (priority : Priority) (same : other.columns = table.columns) :
    priority.ranking other = priority.ranking table ∧ priority.shared other = priority.shared table ∧
      (priority.Unsuited other ↔ priority.Unsuited table) := by
  have ranking : priority.ranking other = priority.ranking table := by
    rw [Priority.ranking, same, Priority.ranking]
  refine ⟨ranking, ?_, ?_⟩
  · rw [shared, shared, ranking, same]
  · rw [Unsuited, Unsuited, same]

/-- A filter that succeeds on some rows succeeds on them in any order, and leaves the same rows. -/
theorem exists_apply_of_perm (columns : other.columns = table.columns)
    (rows : table.rows.Perm other.rows) {result : Table}
    (applied : (priority.apply table).outcome = .ok result) :
    ∃ again, (priority.apply other).outcome = .ok again ∧ again.columns = result.columns ∧
      again.rows.Perm result.rows := by
  obtain ⟨ranking, shared, unsuited⟩ := settings_of_columns priority columns
  have suited : ¬ priority.Unsuited table := by
    intro refused
    obtain ⟨cause, ended⟩ := refused_of_unsuited refused
    rw [applied] at ended
    cases ended
  have run := (apply_of_suited (mt unsuited.mp suited)).1
  rw [(apply_of_suited suited).1] at applied
  obtain ⟨kept, worked, rfl⟩ := map_eq_ok.mp applied
  obtain ⟨again, reached, permuted⟩ := exists_kept_of_perm rows (Logged.outcome_each_eq_ok.mp worked)
  rw [ranking, shared, Logged.outcome_each_eq_ok.mpr reached] at run
  exact ⟨_, run, columns, permuted.flatten⟩

/-- A filter succeeds on the same rows in another order just when it does on these, and leaves the
same rows. -/
theorem apply_of_perm (priority : Priority) {table other : Table}
    (columns : other.columns = table.columns) (rows : other.rows.Perm table.rows) :
    ((∃ again, (priority.apply other).outcome = .ok again) ↔
        ∃ result, (priority.apply table).outcome = .ok result) ∧
      ∀ result again, (priority.apply table).outcome = .ok result →
        (priority.apply other).outcome = .ok again →
        again.columns = result.columns ∧ again.rows.Perm result.rows := by
  refine ⟨⟨fun holds => ?_, fun holds => ?_⟩, fun result again applied reapplied => ?_⟩
  · obtain ⟨again, reapplied⟩ := holds
    obtain ⟨result, applied, _⟩ := exists_apply_of_perm columns.symm rows reapplied
    exact ⟨result, applied⟩
  · obtain ⟨result, applied⟩ := holds
    obtain ⟨again, reapplied, _⟩ := exists_apply_of_perm columns rows.symm applied
    exact ⟨again, reapplied⟩
  · obtain ⟨found, reached, same⟩ := exists_apply_of_perm columns rows.symm applied
    obtain rfl : found = again := Except.ok.inj (reached.symm.trans reapplied)
    exact same

/-- The last row comes first in the other order, so its group and the row kept of it do too. -/
theorem apply_of_perm_three_groups :
    (∃ again, ((⟨"res", ["h", "d"], none, .ignore⟩ : Priority).apply
        ⟨["model", "number", "res"],
          [⟨"e", ["b", "2", "h"]⟩, ⟨"a", ["a", "1", "d"]⟩, ⟨"b", ["b", "1", "x"]⟩,
            ⟨"c", ["b", "1", "x"]⟩, ⟨"d", ["b", "2", "d"]⟩]⟩).outcome = .ok again) ∧
      [(⟨"e", ["b", "2", "h"]⟩ : Row), ⟨"a", ["a", "1", "d"]⟩].Perm
        [⟨"a", ["a", "1", "d"]⟩, ⟨"e", ["b", "2", "h"]⟩] := by
  have permuted := @apply_of_perm ⟨"res", ["h", "d"], none, .ignore⟩
    ⟨["model", "number", "res"],
      [⟨"a", ["a", "1", "d"]⟩, ⟨"b", ["b", "1", "x"]⟩, ⟨"c", ["b", "1", "x"]⟩,
        ⟨"d", ["b", "2", "d"]⟩, ⟨"e", ["b", "2", "h"]⟩]⟩
    ⟨["model", "number", "res"],
      [⟨"e", ["b", "2", "h"]⟩, ⟨"a", ["a", "1", "d"]⟩, ⟨"b", ["b", "1", "x"]⟩,
        ⟨"c", ["b", "1", "x"]⟩, ⟨"d", ["b", "2", "d"]⟩]⟩ rfl (by decide)
  have applied : ((⟨"res", ["h", "d"], none, .ignore⟩ : Priority).apply
      ⟨["model", "number", "res"],
        [⟨"a", ["a", "1", "d"]⟩, ⟨"b", ["b", "1", "x"]⟩, ⟨"c", ["b", "1", "x"]⟩,
          ⟨"d", ["b", "2", "d"]⟩, ⟨"e", ["b", "2", "h"]⟩]⟩).outcome =
      .ok ⟨["model", "number", "res"], [⟨"a", ["a", "1", "d"]⟩, ⟨"e", ["b", "2", "h"]⟩]⟩ := by
    decide +kernel
  have reapplied : ((⟨"res", ["h", "d"], none, .ignore⟩ : Priority).apply
      ⟨["model", "number", "res"],
        [⟨"e", ["b", "2", "h"]⟩, ⟨"a", ["a", "1", "d"]⟩, ⟨"b", ["b", "1", "x"]⟩,
          ⟨"c", ["b", "1", "x"]⟩, ⟨"d", ["b", "2", "d"]⟩]⟩).outcome =
      .ok ⟨["model", "number", "res"], [⟨"e", ["b", "2", "h"]⟩, ⟨"a", ["a", "1", "d"]⟩]⟩ := by
    decide +kernel
  exact ⟨permuted.1.mpr ⟨_, applied⟩, (permuted.2 _ _ applied reapplied).2⟩

end PathCatalog.Priority
