import PathCatalog.Proofs.Finding.Pipeline
import PathCatalog.Proofs.Table.Descent

namespace PathCatalog

/-- A row that extends another one has the same record, as far as that one's columns go. -/
theorem Table.get?_fieldMap_of_extends {table next : Table} {row origin : Row}
    (columns : table.columns <+: next.columns) (distinct : next.columns.Nodup)
    (aligned : origin.values.length = table.columns.length) (extended : row.Extends origin)
    {name : String} (column : name ∈ table.columns) :
    (next.fieldMap row).get? name = (table.fieldMap origin).get? name := by
  obtain ⟨added, joined⟩ := columns
  obtain ⟨more, continued⟩ := extended.values
  have inside : table.columns.idxOf name < origin.values.length := by
    rw [aligned]
    exact List.idxOf_lt_length_of_mem column
  have held : (table.columns.zip origin.values).lookup name =
      some origin.values[table.columns.idxOf name] := by
    rw [lookup_zip, idxOf?_of_mem column, Option.bind_some, List.getElem?_eq_getElem inside]
  have earlier : table.columns.Nodup := by
    rw [← joined] at distinct
    exact (List.nodup_append.mp distinct).1
  rw [fieldMap, fieldMap, Entries.get?_ofList_zip distinct, Entries.get?_ofList_zip earlier,
    ← lookup_zip, ← lookup_zip, ← joined, ← continued, List.zip_append aligned.symm,
    List.lookup_append, held, Option.some_or]

namespace Finder

variable {finder : Finder} {query : Query} {options : FindOptions} {found : Table}

/-- No path is found twice: its values would stand in two rows. -/
theorem nodup_paths_of_find (searched : (finder.find query options).outcome = .ok found) :
    found.paths.Nodup := by
  obtain ⟨_, _, _, _, _, _, unique⟩ := of_find_eq_ok searched
  refine List.Nodup.map_on (fun first here second there same => ?_) (List.Nodup.of_map _ unique)
  obtain ⟨one, read, named⟩ := path_of_row searched here
  obtain ⟨other, again, called⟩ := path_of_row searched there
  -- behind the common suffix stands one path, and a path is read in one way
  obtain rfl : one = other := by
    rw [named, called] at same
    exact String.append_left_inj _ |>.mp same
  have values : first.values = second.values := Option.some.inj (read.symm.trans again)
  exact List.inj_on_of_nodup_map unique here there values

/-- The record of every row that a run has left builds the path of the row. -/
theorem build_of_descends (searched : (finder.find query options).outcome = .ok found)
    {table : Table} (descends : table.Descends found) {row : Row} (member : row ∈ table.rows) :
    ∃ path, finder.template.build (table.fieldMap row) = .ok path ∧
      row.path = path ++ finder.suffix := by
  obtain ⟨origin, first, extended⟩ := descends.rows row member
  obtain ⟨path, read, named⟩ := path_of_row searched first
  refine ⟨path, ?_, extended.path.trans named⟩
  rw [← build_of_read searched read]
  have columns := columns_of_find searched
  refine Template.build_congr fun name field => ?_
  have distinct : found.columns.Nodup := columns ▸ finder.template.nodup_fields
  exact Table.get?_fieldMap_of_extends descends.columns (descends.distinct distinct)
    (aligned_of_find searched first) extended (columns ▸ field)

/-- After any operations on a found table its rows build their distinct paths, extend found rows and
differ in their values. -/
theorem integrity_of_runAll {operations : List Table.Operation} {table : Table}
    (searched : (finder.find query options).outcome = .ok found)
    (ran : (Table.runAll operations found).outcome = .ok table) :
    (∀ row ∈ table.rows, ∃ path, finder.template.build (table.fieldMap row) = .ok path ∧
        row.path = path ++ finder.suffix) ∧
      table.paths.Nodup ∧ (∀ row ∈ table.rows, ∃ origin ∈ found.rows, row.Extends origin) ∧
      table.ensureUnique = .ok () := by
  have descends := Table.descends_of_runAll ran
  have paths := descends.paths (nodup_paths_of_find searched)
  have built : ∀ row ∈ table.rows, ∃ path, finder.template.build (table.fieldMap row) = .ok path ∧
      row.path = path ++ finder.suffix :=
    fun row member => build_of_descends searched descends member
  refine ⟨built, paths, descends.rows, Table.ensureUnique_eq_ok.mpr ?_⟩
  refine List.Nodup.map_on (fun first here second there same => ?_) (List.Nodup.of_map _ paths)
  obtain ⟨path, spelled, named⟩ := built first here
  obtain ⟨other, again, called⟩ := built second there
  have record : table.fieldMap first = table.fieldMap second := by
    rw [Table.fieldMap, Table.fieldMap, same]
  obtain rfl : path = other := by
    rw [record, again] at spelled
    exact (Except.ok.inj spelled).symm
  exact List.inj_on_of_nodup_map paths here there (named.trans called.symm)

/-- A run of all seven operations on three found members of an ensemble. -/
theorem integrity_of_ensemble_run :
    (⟨["exp", "table", "varn", "model", "ens", "grid", "ensnumber", "r", "i", "p", "f", "size"],
      [⟨"h_A_t_m_r2i1p1f1_gr.nc",
        ["h", "A", "t", "m", "r2i1p1f1", "gr", "1", "2", "1", "1", "1", "9"]⟩]⟩ :
      Table).ensureUnique = .ok () := by
  let template : Template :=
    ⟨"{exp}_{table}_{varn}_{model}_{ens}_{grid}",
      [.field "exp" none, .literal "_", .field "table" none, .literal "_", .field "varn" none,
        .literal "_", .field "model" none, .literal "_", .field "ens" none, .literal "_",
        .field "grid" none], by decide +kernel⟩
  let paths := ["h_A_t_m_r1i1p1f1_gn", "h_A_t_m_r1i1p1f1_gr", "h_A_t_m_r2i1p1f1_gr"]
  let operations : List Table.Operation :=
    [.uniqueGrid, .numberMembers none, .parseLabels, .withColumn "size" ["8", "9"],
      .search (Entries.ofList [("table", .list ["A", "B"])]),
      .filter ⟨"grid", ["gr"], some ["exp"], .raise⟩, .slice (.included 0) (.excluded 5)]
  let found : Table :=
    ⟨["exp", "table", "varn", "model", "ens", "grid"],
      [⟨"h_A_t_m_r1i1p1f1_gn.nc", ["h", "A", "t", "m", "r1i1p1f1", "gn"]⟩,
        ⟨"h_A_t_m_r1i1p1f1_gr.nc", ["h", "A", "t", "m", "r1i1p1f1", "gr"]⟩,
        ⟨"h_A_t_m_r2i1p1f1_gr.nc", ["h", "A", "t", "m", "r2i1p1f1", "gr"]⟩]⟩
  let query : Query :=
    Entries.ofList [("ens", .list ["r1i1p1f1", "r2i1p1f1"]), ("grid", .list ["gn", "gr"])]
  exact (@integrity_of_runAll ⟨template, ".nc", Provider.listed paths⟩ query {} found operations _
    (by decide +kernel) (by decide +kernel)).2.2.2

end Finder

end PathCatalog
