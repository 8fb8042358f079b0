import PathCatalog.Table

namespace PathCatalog.Table

/-- An item is new when it is not among the seen ones and does not come again. -/
theorem nodup_cons_fresh_iff {Item : Type} {seen rest : List Item} {item : Item} :
    ((item :: rest).Nodup ∧ ∀ other ∈ item :: rest, other ∉ seen) ↔
      item ∉ seen ∧ rest.Nodup ∧ ∀ other ∈ rest, other ∉ item :: seen := by
  rw [List.nodup_cons, List.forall_mem_cons]
  constructor
  · intro holds
    obtain ⟨⟨once, distinct⟩, new, fresh⟩ := holds
    refine ⟨new, distinct, fun other member before => ?_⟩
    rcases List.mem_cons.mp before with rfl | before
    · exact once member
    · exact fresh other member before
  · intro holds
    obtain ⟨new, distinct, fresh⟩ := holds
    refine ⟨⟨fun again => ?_, distinct⟩, new, fun other member before => ?_⟩
    · exact fresh item again List.mem_cons_self
    · exact fresh other member (List.mem_cons_of_mem _ before)

theorem firstRepeated?_eq_none {seen texts : List String} :
    firstRepeated? seen texts = none ↔ texts.Nodup ∧ ∀ text ∈ texts, text ∉ seen := by
  induction texts generalizing seen with
  | nil => simp [firstRepeated?]
  | cons text rest ih =>
      rw [firstRepeated?, nodup_cons_fresh_iff]
      by_cases known : text ∈ seen
      · simp [known]
      · rw [if_neg (by simpa using known), ih]
        simp [known]

/-- Rows make a table when the columns are distinct and every row is as long as they are. -/
theorem fromRows_eq_ok {columns : List String} {rows : List Row} {table : Table} :
    fromRows columns rows = .ok table ↔
      columns.Nodup ∧ (∀ row ∈ rows, row.values.length = columns.length) ∧
        table = ⟨columns, rows⟩ := by
  have distinct : firstRepeated? [] columns = none ↔ columns.Nodup := by
    simp [firstRepeated?_eq_none]
  have aligned : (rows.find? fun row => row.values.length != columns.length) = none ↔
      ∀ row ∈ rows, row.values.length = columns.length := by
    simp
  rw [fromRows, ← distinct, ← aligned]
  cases firstRepeated? [] columns with
  | some column => simp
  | none =>
      cases rows.find? fun row => row.values.length != columns.length with
      | some row => simp
      | none => simp [eq_comm]

theorem repeatedRows_eq_nil {seen : List (List String)} {rows : List Row} :
    repeatedRows seen rows = [] ↔
      (rows.map Row.values).Nodup ∧ ∀ values ∈ rows.map Row.values, values ∉ seen := by
  induction rows generalizing seen with
  | nil => simp [repeatedRows]
  | cons row rest ih =>
      rw [repeatedRows, List.map_cons, nodup_cons_fresh_iff]
      by_cases known : row.values ∈ seen
      · simp [known]
      · rw [if_neg (by simpa using known), ih]
        simp [known]

/-- The check passes exactly when no two rows carry the same values. -/
theorem ensureUnique_eq_ok {table : Table} :
    table.ensureUnique = .ok () ↔ (table.rows.map Row.values).Nodup := by
  have unrepeated : repeatedRows [] table.rows = [] ↔ (table.rows.map Row.values).Nodup := by
    simp [repeatedRows_eq_nil]
  rw [ensureUnique, ← unrepeated]
  cases repeatedRows [] table.rows with
  | nil => simp
  | cons first rest => simp [reportedDuplicates]

/-- The check fails with the first rows whose values stand in a row before. -/
theorem ensureUnique_eq_error {table : Table} {fault : Failure} :
    table.ensureUnique = .error fault ↔ ¬ (table.rows.map Row.values).Nodup ∧
      fault = .repeatedMetadata
        (((repeatedRows [] table.rows).take reportedDuplicates).map table.describe) := by
  rw [← ensureUnique_eq_ok, ensureUnique]
  cases repeatedRows [] table.rows with
  | nil => simp
  | cons first rest => simp [reportedDuplicates, eq_comm]

/-- What a row at a place carries stands in an earlier row. -/
def RepeatedIn (rows : List Row) (placed : Row × Nat) : Prop :=
  ∃ earlier ∈ rows.take placed.2, earlier.values = placed.1.values

instance (rows : List Row) (placed : Row × Nat) : Decidable (RepeatedIn rows placed) :=
  inferInstanceAs (Decidable (∃ earlier ∈ rows.take placed.2, _))

/-- The rows whose values stand in an earlier row, in order. -/
def repeats (table : Table) : List Row :=
  (table.rows.zipIdx.filter fun placed => RepeatedIn table.rows placed).map Prod.fst

/-- The values that were seen before a row are those of the rows in front of it. -/
theorem repeatedRows_eq {before rest : List Row} {seen : List (List String)}
    (known : ∀ values, values ∈ seen ↔ ∃ earlier ∈ before, earlier.values = values) :
    repeatedRows seen rest = ((rest.zipIdx before.length).filter fun placed =>
      RepeatedIn (before ++ rest) placed).map Prod.fst := by
  induction rest generalizing before seen with
  | nil => rfl
  | cons row rest ih =>
      have here : RepeatedIn (before ++ row :: rest) (row, before.length) ↔ row.values ∈ seen := by
        rw [known, RepeatedIn, List.take_left]
      have moved : before ++ row :: rest = (before ++ [row]) ++ rest := List.append_cons ..
      have size : before.length + 1 = (before ++ [row]).length := by simp
      have later : ∀ values, values ∈ row.values :: seen ↔
          ∃ earlier ∈ before ++ [row], earlier.values = values := by
        intro values
        simp [known, or_and_right, exists_or, or_comm, eq_comm]
      rw [repeatedRows, List.zipIdx_cons, List.filter_cons]
      by_cases again : row.values ∈ seen
      · have same : ∀ values, values ∈ seen ↔
            ∃ earlier ∈ before ++ [row], earlier.values = values := by
          intro values
          rw [← later, List.mem_cons, or_iff_right_of_imp]
          exact fun equal => equal ▸ again
        rw [if_pos (by simpa using again), if_pos (by simpa using here.mpr again), List.map_cons,
          ih same, size, moved]
      · rw [if_neg (by simpa using again), if_neg (by simpa using mt here.mp again), ih later, size,
          moved]

theorem repeatedRows_eq_repeats (table : Table) : repeatedRows [] table.rows = table.repeats := by
  apply @repeatedRows_eq []
  simp

/-- The check passes when no values repeat, and otherwise names the first five rows whose values
stand in an earlier row. -/
theorem ensureUnique_exact (table : Table) :
    (table.ensureUnique = .ok () ↔
        table.rows.Pairwise fun row other => row.values ≠ other.values) ∧
      ∀ fault, table.ensureUnique = .error fault ↔
        ¬ (table.rows.Pairwise fun row other => row.values ≠ other.values) ∧
          fault = .repeatedMetadata
            ((table.repeats.take (min 5 table.repeats.length)).map table.describe) := by
  have distinct : (table.rows.map Row.values).Nodup ↔
      table.rows.Pairwise fun row other => row.values ≠ other.values := List.pairwise_map
  have cut : table.repeats.take (min 5 table.repeats.length) =
      table.repeats.take reportedDuplicates := by
    rw [reportedDuplicates, ← List.take_eq_take_min]
  refine ⟨ensureUnique_eq_ok.trans distinct, fun fault => ?_⟩
  rw [ensureUnique_eq_error, distinct, repeatedRows_eq_repeats, cut]

end PathCatalog.Table
