import Mathlib.Data.List.Forall2
import Mathlib.Data.List.Perm.Basic
import PathCatalog.Proofs.Entries
import PathCatalog.Proofs.Table.Assembly
import PathCatalog.Proofs.Table.Descent

namespace PathCatalog.Table

/-- A record is another one with its fields in any order. -/
def Reordered (record other : String × FieldMap) : Prop :=
  record.1 = other.1 ∧ record.2.pairs.Perm other.2.pairs

/-- A row tells a record: it has its path and the values of its fields, which are the columns. -/
structure Tells (columns : List String) (record : String × FieldMap) (row : Row) : Prop where
  path : row.path = record.1
  aligned : row.values.length = columns.length
  fields : record.2.pairs.Perm (columns.zip row.values)

section Rows

variable {columns : List String} {fields : FieldMap} {values : List String}
  {record : String × FieldMap} {row : Row}

theorem recordValues_eq_ok {path : String} : recordValues path fields columns = .ok values ↔
    List.Forall₂ (fun column value => fields.get? column = some value) columns values := by
  induction columns generalizing values with
  | nil => rw [recordValues, List.forall₂_nil_left_iff, Except.ok.injEq, eq_comm]
  | cons column rest ih =>
      rw [recordValues, List.forall₂_cons_left_iff]
      cases found : fields.get? column with
      | none => simp
      | some value =>
          rw [map_eq_ok]
          constructor
          · intro read
            obtain ⟨others, held, rfl⟩ := read
            exact ⟨value, others, rfl, ih.mp held, rfl⟩
          · intro carried
            obtain ⟨_, others, same, held, rfl⟩ := carried
            exact ⟨others, ih.mpr held, congrArg (· :: others) (Option.some.inj same)⟩

theorem map_fst_columns_zip (aligned : values.length = columns.length) :
    (columns.zip values).map Prod.fst = columns :=
  List.map_fst_zip (Nat.le_of_eq aligned.symm)

/-- With as many fields as columns and a value for each column, there is no other field. -/
theorem perm_zip_iff (distinct : columns.Nodup) :
    (fields.size = columns.length ∧
        List.Forall₂ (fun column value => fields.get? column = some value) columns values) ↔
      values.length = columns.length ∧ fields.pairs.Perm (columns.zip values) := by
  rw [List.forall₂_iff_zip]
  constructor
  · intro carried
    obtain ⟨size, aligned, held⟩ := carried
    have once : (columns.zip values).Nodup := by
      refine List.Nodup.of_map Prod.fst ?_
      rwa [map_fst_columns_zip aligned.symm]
    have inside : columns.zip values ⊆ fields.pairs := fun pair member =>
      Entries.get?_eq_some_iff.mp (held member)
    have whole : fields.pairs.length ≤ (columns.zip values).length := by
      rw [List.length_zip, ← aligned, Nat.min_self]
      exact Nat.le_of_eq size
    exact ⟨aligned.symm, ((List.subperm_of_subset once inside).perm_of_length_le whole).symm⟩
  · intro told
    obtain ⟨aligned, perm⟩ := told
    refine ⟨?_, aligned.symm, fun member => Entries.get?_eq_some_iff.mpr (perm.mem_iff.mpr member)⟩
    rw [Entries.size, perm.length_eq, List.length_zip, aligned, Nat.min_self]

theorem recordRow_eq_ok (distinct : columns.Nodup) :
    recordRow columns record = .ok row ↔ Tells columns record row := by
  rw [recordRow]
  constructor
  · intro made
    split at made
    next => cases made
    next size =>
      obtain ⟨values, read, rfl⟩ := map_eq_ok.mp made
      obtain ⟨aligned, fields⟩ := (perm_zip_iff distinct).mp
        ⟨Decidable.not_not.mp size, recordValues_eq_ok.mp read⟩
      exact ⟨rfl, aligned, fields⟩
  · intro told
    obtain ⟨size, carried⟩ := (perm_zip_iff distinct).mpr ⟨told.aligned, told.fields⟩
    rw [if_neg (Decidable.not_not.mpr size), recordValues_eq_ok.mpr carried, ← told.path]
    rfl

/-- The fields of a record that is told are the columns. -/
theorem Tells.names (told : Tells columns record row) : record.2.names.Perm columns := by
  have named := told.fields.map Prod.fst
  rwa [map_fst_columns_zip told.aligned] at named

/-- The row that tells a record with the right fields. -/
def rowOf (columns : List String) (record : String × FieldMap) : Row :=
  ⟨record.1, columns.map fun column => (record.2.get? column).getD ""⟩

theorem tells_rowOf (distinct : columns.Nodup)
    (named : ∀ name, name ∈ record.2.names ↔ name ∈ columns) :
    Tells columns record (rowOf columns record) := by
  have perm : record.2.names.Perm columns :=
    (List.perm_ext_iff_of_nodup record.2.distinct distinct).mpr named
  have size : record.2.size = columns.length := by
    rw [← perm.length_eq, Entries.names, List.length_map, Entries.size]
  have carried : List.Forall₂ (fun column value => record.2.get? column = some value) columns
      (columns.map fun column => (record.2.get? column).getD "") := by
    refine List.forall₂_map_right_iff.mpr (List.forall₂_same.mpr fun column member => ?_)
    obtain ⟨value, found⟩ := Entries.exists_get? ((named column).mpr member)
    rw [found, Option.getD_some]
  obtain ⟨aligned, fields⟩ := (perm_zip_iff distinct).mp ⟨size, carried⟩
  exact ⟨rfl, aligned, fields⟩

end Rows

section Records

variable {columns : List String} {records : List (String × FieldMap)} {rows : List Row}
  {table : Table}

theorem recordRows_eq_ok : recordRows columns records = .ok rows ↔
    List.Forall₂ (fun record row => recordRow columns record = .ok row) records rows := by
  induction records generalizing rows with
  | nil => rw [recordRows, List.forall₂_nil_left_iff, Except.ok.injEq, eq_comm]
  | cons record rest ih =>
      rw [recordRows, List.forall₂_cons_left_iff, bind_eq_ok]
      refine exists_congr fun row => ?_
      rw [bind_eq_ok]
      constructor
      · intro made
        obtain ⟨first, others, later, last⟩ := made
        cases last
        exact ⟨others, first, ih.mp later, rfl⟩
      · intro made
        obtain ⟨others, first, later, rfl⟩ := made
        exact ⟨first, others, ih.mpr later, rfl⟩

/-- Records make a table when its columns are distinct and its rows tell them, one by one. -/
theorem fromRecords_eq_ok : fromRecords columns records = .ok table ↔
    columns.Nodup ∧ table.columns = columns ∧
      List.Forall₂ (Tells columns) records table.rows := by
  rw [fromRecords, bind_eq_ok]
  constructor
  · intro made
    obtain ⟨rows, read, made⟩ := made
    obtain ⟨distinct, _, rfl⟩ := fromRows_eq_ok.mp made
    exact ⟨distinct, rfl, (recordRows_eq_ok.mp read).imp fun _ _ => (recordRow_eq_ok distinct).mp⟩
  · intro told
    obtain ⟨distinct, rfl, told⟩ := told
    have aligned : ∀ row ∈ table.rows, row.values.length = table.columns.length := by
      intro row member
      obtain ⟨record, tells⟩ := exists_of_forall₂ told.flip row member
      exact tells.aligned
    exact ⟨table.rows, recordRows_eq_ok.mpr (told.imp fun _ _ => (recordRow_eq_ok distinct).mpr),
      fromRows_eq_ok.mpr ⟨distinct, aligned, rfl⟩⟩

/-- A row is read out as its values beside the columns. -/
theorem pairs_fieldMap (distinct : table.columns.Nodup) (row : Row) :
    (table.fieldMap row).pairs = table.columns.zip row.values :=
  Entries.pairs_ofList (distinct.sublist (names_zip_sublist _ _))

/-- The records of a table make it again, also with their fields in another order. -/
theorem fromRecords_records (aligned : table.Aligned) (distinct : table.columns.Nodup)
    (reordered : List.Forall₂ Reordered records table.records) :
    fromRecords table.columns records = .ok table := by
  refine fromRecords_eq_ok.mpr ⟨distinct, rfl, ?_⟩
  have read := (List.forall₂_and_left _ _).mpr
    ⟨aligned, (List.forall₂_map_right_iff.mp reordered).flip⟩
  refine (read.imp fun row record held => ?_).flip
  obtain ⟨width, path, fields⟩ := held
  exact ⟨path.symm, width, fields.trans (List.Perm.of_eq (pairs_fieldMap distinct row))⟩

/-- Records make a table just when its columns are distinct and are the fields of every record. -/
theorem exists_fromRecords_iff : (∃ table, fromRecords columns records = .ok table) ↔
    columns.Nodup ∧ ∀ record ∈ records, ∀ name, name ∈ record.2.names ↔ name ∈ columns := by
  constructor
  · intro made
    obtain ⟨table, made⟩ := made
    obtain ⟨distinct, _, told⟩ := fromRecords_eq_ok.mp made
    refine ⟨distinct, fun record member name => ?_⟩
    obtain ⟨row, tells⟩ := exists_of_forall₂ told record member
    exact tells.names.mem_iff
  · intro fit
    obtain ⟨distinct, named⟩ := fit
    refine ⟨⟨columns, records.map (rowOf columns)⟩, fromRecords_eq_ok.mpr ⟨distinct, rfl, ?_⟩⟩
    exact List.forall₂_map_right_iff.mpr (List.forall₂_same.mpr fun record member =>
      tells_rowOf distinct (named record member))

/-- What is read out are the records that went in, with their fields in the order of the columns. -/
theorem records_of_fromRecords (made : fromRecords columns records = .ok table) :
    List.Forall₂ (fun again record => again.2.names = columns ∧ Reordered again record)
      table.records records := by
  obtain ⟨distinct, rfl, told⟩ := fromRecords_eq_ok.mp made
  refine List.forall₂_map_left_iff.mpr (told.flip.imp fun row record tells => ?_)
  have pairs := pairs_fieldMap distinct row
  refine ⟨?_, tells.path, (List.Perm.of_eq pairs).trans tells.fields.symm⟩
  rw [Entries.names, pairs, map_fst_columns_zip tells.aligned]

end Records

/-- A table with distinct columns comes back from its records, and records make a table when their
fields are the columns. -/
theorem fromRecords_exact :
    (∀ table : Table, table.Aligned → table.columns.Nodup →
      fromRecords table.columns table.records = .ok table ∧
        ∀ records, List.Forall₂ Reordered records table.records →
          fromRecords table.columns records = .ok table) ∧
      (∀ columns records, (∃ table, fromRecords columns records = .ok table) ↔
        columns.Nodup ∧ ∀ record ∈ records, ∀ name, name ∈ record.2.names ↔ name ∈ columns) ∧
      ∀ columns records table, fromRecords columns records = .ok table →
        table.columns = columns ∧
          List.Forall₂ (fun again record => again.2.names = columns ∧ Reordered again record)
            table.records records := by
  refine ⟨fun table aligned distinct => ⟨?_, fun records => fromRecords_records aligned distinct⟩,
    fun columns records => exists_fromRecords_iff, fun columns records table made => ⟨?_, ?_⟩⟩
  · exact fromRecords_records aligned distinct
      (List.forall₂_same.mpr fun record _ => ⟨rfl, List.Perm.refl _⟩)
  · exact (fromRecords_eq_ok.mp made).2.1
  · exact records_of_fromRecords made

/-- Two rows come back from records with their fields the other way round. -/
theorem fromRecords_exact_swapped :
    fromRecords ["exp", "model"]
        [("a", .ofList [("model", "x"), ("exp", "h")]),
          ("b", .ofList [("model", "y"), ("exp", "s")])] =
      .ok ⟨["exp", "model"], [⟨"a", ["h", "x"]⟩, ⟨"b", ["s", "y"]⟩]⟩ ∧
      List.Forall₂ (fun again record => again.2.names = ["exp", "model"] ∧ Reordered again record)
        (records ⟨["exp", "model"], [⟨"a", ["h", "x"]⟩, ⟨"b", ["s", "y"]⟩]⟩)
        [("a", .ofList [("model", "x"), ("exp", "h")]),
          ("b", .ofList [("model", "y"), ("exp", "s")])] := by
  have again := fromRecords_exact.1 ⟨["exp", "model"], [⟨"a", ["h", "x"]⟩, ⟨"b", ["s", "y"]⟩]⟩
    (by decide) (by decide)
  have made := again.2 [("a", .ofList [("model", "x"), ("exp", "h")]),
    ("b", .ofList [("model", "y"), ("exp", "s")])]
    (.cons ⟨rfl, by decide⟩ (.cons ⟨rfl, by decide⟩ .nil))
  exact ⟨made, (fromRecords_exact.2.2 _ _ _ made).2⟩

end PathCatalog.Table
