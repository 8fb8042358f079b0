import PathCatalog.CommandLine.Run
import PathCatalog.Proofs.Archive
import PathCatalog.Proofs.Finding.Pipeline
import PathCatalog.Proofs.Table.Descent
import PathCatalog.Proofs.Text.JsonLine

namespace PathCatalog

/-- An object holds a row's values by column, its path unless a column has that name, and nothing
else. -/
structure Table.HeldBy (table : Table) (row : Row) (object : FieldMap) : Prop where
  values : table.columns.map object.get? = row.values.map some
  path : "path" ∉ table.columns → object.get? "path" = some row.path
  others : ∀ name, name ≠ "path" → name ∉ table.columns → object.get? name = none

namespace CommandLine

variable {table : Table} {row : Row}

/-- A column's value goes before the path. -/
theorem get?_members (record : String × FieldMap) (name : String) :
    (members record).get? name =
      (record.2.get? name).or (if name = "path" then some record.1 else none) := by
  rw [members, Entries.get?_merged]
  by_cases same : name = "path"
  · rw [same, if_pos rfl]
    rfl
  · rw [if_neg same, Entries.get?_ofList, List.reverse_singleton, lookup_cons_of_ne same]
    rfl

theorem heldBy_members (distinct : table.columns.Nodup)
    (aligned : row.values.length = table.columns.length) :
    table.HeldBy row (members (row.path, table.fieldMap row)) := by
  have held (name : String) : (table.fieldMap row).get? name =
      (table.columns.idxOf? name).bind fun index => row.values[index]? :=
    Entries.get?_ofList_zip distinct row.values name
  have absent {name : String} (outside : name ∉ table.columns) :
      (table.fieldMap row).get? name = none := by
    rw [held, List.idxOf?_eq_none_iff.mpr outside, Option.bind_none]
  constructor
  case values =>
    refine List.ext_getElem (by simp [aligned]) fun index here there => ?_
    have inColumns : index < table.columns.length := by simpa using here
    have inValues : index < row.values.length := by simpa using there
    rw [List.getElem_map, List.getElem_map, get?_members, held,
      idxOf?_of_mem (List.getElem_mem inColumns), distinct.idxOf_getElem, Option.bind_some,
      List.getElem?_eq_getElem inValues, Option.some_or]
  case path =>
    intro outside
    rw [get?_members, absent outside, Option.none_or, if_pos rfl]
  case others =>
    intro name other outside
    rw [get?_members, absent outside, Option.none_or, if_neg other]

/-- Nothing is left open: objects that hold a row agree on every name. -/
theorem get?_of_heldBy {object other : FieldMap} (held : table.HeldBy row object)
    (again : table.HeldBy row other) (name : String) : object.get? name = other.get? name := by
  by_cases column : name ∈ table.columns
  · exact List.map_inj_left.mp (held.values.trans again.values.symm) name column
  · by_cases path : name = "path"
    · subst path
      rw [held.path column, again.path column]
    · rw [held.others name path column, again.others name path column]

/-- A line of a row is read as an object, and however it is read, the object holds the row. -/
structure RowLine (table : Table) (row : Row) (line : String) : Prop where
  readable : ∃ object, Text.jsonObject object = line
  holds : ∀ object, Text.jsonObject object = line → table.HeldBy row object

/-- A row has one line, which is that of any object that holds the row. -/
theorem rowLine_iff {object : FieldMap} (held : table.HeldBy row object) {line : String} :
    RowLine table row line ↔ Text.jsonObject object = line := by
  constructor
  · intro shown
    obtain ⟨other, rfl⟩ := shown.readable
    exact Text.jsonObject_eq_iff.mpr (get?_of_heldBy held (shown.holds other rfl))
  · intro written
    refine ⟨⟨object, written⟩, fun other same => ?_⟩
    have equal := Text.jsonObject_eq_iff.mp (same.trans written.symm)
    constructor
    case values => exact (List.map_congr_left fun column _ => equal column).trans held.values
    case path => exact fun outside => (equal _).trans (held.path outside)
    case others => exact fun name apart outside => (equal _).trans (held.others name apart outside)

theorem rightUnique_rowLine : Relator.RightUnique (RowLine table) := by
  intro row line other shown again
  obtain ⟨object, rfl⟩ := shown.readable
  exact (rowLine_iff (shown.holds object rfl)).mp again

theorem rowLines_jsonLines (distinct : table.columns.Nodup) (aligned : table.Aligned) :
    List.Forall₂ (RowLine table) table.rows (jsonLines table) := by
  rw [jsonLines, Table.records, List.map_map, List.forall₂_map_right_iff]
  refine List.forall₂_same.mpr fun row member => ?_
  exact (rowLine_iff (heldBy_members distinct (aligned row member))).mpr rfl

theorem descends_of_reduce {priority : Option Priority} {found : Table}
    (reduced : (reduce priority found).outcome = .ok table) :
    table.Descends found ∧ table.columns = found.columns := by
  cases priority with
  | none =>
      cases reduced
      exact ⟨.refl table, rfl⟩
  | some priority =>
      obtain ⟨kept, applied, noted⟩ := Logged.outcome_bind_eq_ok.mp reduced
      obtain ⟨_, _, same⟩ := Logged.outcome_bind_eq_ok.mp noted
      obtain rfl : kept = table := Except.ok.inj same
      replace applied := Logged.outcome_mapFault_eq_ok.mp applied
      refine ⟨Priority.descends_of_apply applied, ?_⟩
      obtain ⟨_, _, _, _, _, _, rfl⟩ := Priority.of_apply_eq_ok applied
      rfl

namespace FindRequest

variable {request : FindRequest} {host : Host}

/-- The finder that does the search, for directories or for files. -/
def finder (request : FindRequest) (archive : Archive) (provider : Provider) : Finder :=
  if request.paths then ⟨archive.path, Archive.directorySuffix, provider⟩
  else ⟨archive.full, "", provider⟩

/-- A table is printed when a finder has found one that the priority can be applied to. -/
theorem outcome_table_eq_ok : (request.table host).outcome = .ok table ↔
    ∃ config archive query found priority,
      (request.selection.resolve host).outcome = .ok config ∧ config.archive = .ok archive ∧
      parseQuery request.constraints = .ok query ∧
      ((request.finder archive (config.provider host)).find query
        (request.options config)).outcome = .ok found ∧
      (request.priorityOf config).outcome = .ok priority ∧
      (reduce priority found).outcome = .ok table := by
  have search (archive : Archive) : (if request.paths then archive.findPaths else archive.findFiles)
      = fun provider => (request.finder archive provider).find := by
    unfold finder
    cases request.paths <;> rfl
  simp only [FindRequest.table, Logged.outcome_bind_eq_ok, within, assigned,
    Logged.outcome_mapFault_eq_ok, Logged.outcome_ofExcept, search]
  constructor
  · intro holds
    obtain ⟨config, resolved, archive, compiled, query, asked, found, searched, priority, chosen,
      reduced⟩ := holds
    exact ⟨config, archive, query, found, priority, resolved, compiled, asked, searched, chosen,
      reduced⟩
  · intro holds
    obtain ⟨config, archive, query, found, priority, resolved, compiled, asked, searched, chosen,
      reduced⟩ := holds
    exact ⟨config, resolved, archive, compiled, query, asked, found, searched, priority, chosen,
      reduced⟩

end FindRequest

section Lines

variable {request : FindRequest} {host : Host} {lines : List String}

theorem runFind_eq_ok_iff (asked : request.json = true) :
    (runFind request host).outcome = .ok lines ↔
      ∃ table, (request.table host).outcome = .ok table ∧ jsonLines table = lines := by
  simp only [runFind, Logged.outcome_bind_eq_ok, asked, if_true, Logged.outcome_pure,
    Except.ok.injEq]

/-- The table of a search has the fields of the template for columns, and full rows. -/
theorem columns_of_table {config : Config} {archive : Archive}
    (resolved : (request.selection.resolve host).outcome = .ok config)
    (compiled : config.archive = .ok archive) (made : (request.table host).outcome = .ok table) :
    table.columns = (request.finder archive (config.provider host)).template.fields ∧
      table.Aligned := by
  obtain ⟨_, _, query, found, priority, again, built, _, searched, _, reduced⟩ :=
    FindRequest.outcome_table_eq_ok.mp made
  obtain rfl := Except.ok.inj (resolved.symm.trans again)
  obtain rfl := Except.ok.inj (compiled.symm.trans built)
  obtain ⟨descends, same⟩ := descends_of_reduce reduced
  exact ⟨same.trans (Finder.columns_of_find searched),
    descends.aligned fun row => Finder.aligned_of_find searched⟩

/-- A search prints one object per row, in order, and fails only as the search does. Only a field
`path` displaces something. -/
theorem runFind_eq_ok_iff_rowLines (asked : request.json = true) :
    (runFind request host).outcome = .ok lines ↔
      ∃ config archive table, (request.selection.resolve host).outcome = .ok config ∧
        config.archive = .ok archive ∧ (request.table host).outcome = .ok table ∧
        table.columns = (request.finder archive (config.provider host)).template.fields ∧
        List.Forall₂ (RowLine table) table.rows lines := by
  rw [runFind_eq_ok_iff asked]
  constructor
  · intro printed
    obtain ⟨table, made, rfl⟩ := printed
    obtain ⟨config, archive, _, _, _, resolved, compiled, _⟩ :=
      FindRequest.outcome_table_eq_ok.mp made
    obtain ⟨columns, aligned⟩ := columns_of_table resolved compiled made
    have distinct : table.columns.Nodup := columns ▸ Template.nodup_fields _
    exact ⟨config, archive, table, resolved, compiled, made, columns,
      rowLines_jsonLines distinct aligned⟩
  · intro holds
    obtain ⟨config, archive, table, resolved, compiled, made, columns, each⟩ := holds
    have distinct : table.columns.Nodup := columns ▸ Template.nodup_fields _
    have aligned := (columns_of_table resolved compiled made).2
    exact ⟨table, made,
      List.right_unique_forall₂' rightUnique_rowLine (rowLines_jsonLines distinct aligned) each⟩

end Lines

/-- Of a run's versions the preferred one is printed, each file with its path and two values. -/
theorem rowLines_of_preferred_versions :
    let host : Host := ⟨⟨[(["d"], .directory), (["d", "1_a.nc"], .file ""),
      (["d", "2_a.nc"], .file ""), (["d", "2_b.nc"], .file "")]⟩, [], "."⟩
    let request : FindRequest := ⟨⟨some "d", some "{run}_{version}.nc", none⟩,
      ["run=1,2", "version=a,b"], false, none, none, some "version=b,a", none, true⟩
    let name := [.field "run" none, .literal "_", .field "version" none, .literal ".nc"]
    let archive : Archive := ⟨⟨"d/", [.literal "d/"], by decide +kernel⟩,
      ⟨"{run}_{version}.nc", name, by decide +kernel⟩,
      ⟨"d/{run}_{version}.nc", .literal "d/" :: name, by decide +kernel⟩, by decide⟩
    let found : Table := ⟨["run", "version"],
      [⟨"d/1_a.nc", ["1", "a"]⟩, ⟨"d/2_a.nc", ["2", "a"]⟩, ⟨"d/2_b.nc", ["2", "b"]⟩]⟩
    let table : Table := ⟨["run", "version"],
      [⟨"d/1_a.nc", ["1", "a"]⟩, ⟨"d/2_b.nc", ["2", "b"]⟩]⟩
    let lines := ["\x7b\"path\":\"d/1_a.nc\",\"run\":\"1\",\"version\":\"a\"\x7d",
      "\x7b\"path\":\"d/2_b.nc\",\"run\":\"2\",\"version\":\"b\"\x7d"]
    Archive.compile "d" "{run}_{version}.nc" = .ok archive ∧
      ((request.finder archive host.provider).find
        (.ofList [("run", .list ["1", "2"]), ("version", .list ["a", "b"])]) {}).outcome =
          .ok found ∧
      (runFind request host).outcome = .ok lines ∧
      List.Forall₂ (RowLine table) table.rows lines := by
  intro host request name archive found table lines
  have compiled : Archive.compile "d" "{run}_{version}.nc" = .ok archive := by
    simp only [Archive.compile_eq_ok, Template.compile_eq_ok]
    decide +kernel
  have searched : ((request.finder archive host.provider).find
      (.ofList [("run", .list ["1", "2"]), ("version", .list ["a", "b"])]) {}).outcome =
        .ok found := by decide +kernel
  have made : (request.table host).outcome = .ok table :=
    FindRequest.outcome_table_eq_ok.mpr ⟨⟨"d", "{run}_{version}.nc", .raise, .raise, none, none⟩,
      archive, _, found, some ⟨"version", ["b", "a"], none, .raise⟩, by decide +kernel, compiled,
      rfl, searched, by decide +kernel, by decide +kernel⟩
  have first : Text.jsonObject (members ("d/1_a.nc", table.fieldMap ⟨"d/1_a.nc", ["1", "a"]⟩)) =
      "\x7b\"path\":\"d/1_a.nc\",\"run\":\"1\",\"version\":\"a\"\x7d" :=
    (Text.jsonObject_of_pairwise (by decide)).trans (by decide +kernel)
  have second : Text.jsonObject (members ("d/2_b.nc", table.fieldMap ⟨"d/2_b.nc", ["2", "b"]⟩)) =
      "\x7b\"path\":\"d/2_b.nc\",\"run\":\"2\",\"version\":\"b\"\x7d" :=
    (Text.jsonObject_of_pairwise (by decide)).trans (by decide +kernel)
  have printed : (runFind request host).outcome = .ok lines :=
    (runFind_eq_ok_iff rfl).mpr
      ⟨table, made, congrArg₂ (fun line other => [line, other]) first second⟩
  obtain ⟨_, _, result, _, _, same, _, each⟩ := (runFind_eq_ok_iff_rowLines rfl).mp printed
  obtain rfl : table = result := Except.ok.inj (made.symm.trans same)
  exact ⟨compiled, searched, printed, each⟩

/-- The path of a row is lost to a field of that name. -/
theorem object_without_path :
    let host : Host := ⟨⟨[(["d"], .directory), (["d", "a.nc"], .file "")]⟩, [], "."⟩
    let request : FindRequest :=
      ⟨⟨some "d", some "{path}.nc", none⟩, [], false, none, none, none, none, true⟩
    let archive : Archive := ⟨⟨"d/", [.literal "d/"], by decide +kernel⟩,
      ⟨"{path}.nc", [.field "path" none, .literal ".nc"], by decide +kernel⟩,
      ⟨"d/{path}.nc", [.literal "d/", .field "path" none, .literal ".nc"], by decide +kernel⟩,
      by decide⟩
    let table : Table := ⟨["path"], [⟨"d/a.nc", ["a"]⟩]⟩
    let line := "\x7b\"path\":\"a\"\x7d"
    (readRequest ["find", "-p", "d", "-f", "{path}.nc", "--json"]).outcome = .ok (.find request) ∧
      Archive.compile "d" "{path}.nc" = .ok archive ∧
      (request.table host).outcome = .ok table ∧ (runFind request host).outcome = .ok [line] ∧
      ∀ object, Text.jsonObject object = line → object.get? "path" ≠ some "d/a.nc" := by
  intro host request archive table line
  have compiled : Archive.compile "d" "{path}.nc" = .ok archive := by
    simp only [Archive.compile_eq_ok, Template.compile_eq_ok]
    decide +kernel
  have made : (request.table host).outcome = .ok table :=
    FindRequest.outcome_table_eq_ok.mpr ⟨⟨"d", "{path}.nc", .raise, .raise, none, none⟩, archive,
      .empty, table, none, by decide +kernel, compiled, rfl, by decide +kernel, rfl, rfl⟩
  have written : Text.jsonObject (members ("d/a.nc", table.fieldMap ⟨"d/a.nc", ["a"]⟩)) = line := by
    decide +kernel
  have printed : (runFind request host).outcome = .ok [line] :=
    (runFind_eq_ok_iff rfl).mpr ⟨table, made, congrArg (fun line => [line]) written⟩
  refine ⟨by decide +kernel, compiled, made, printed, fun object read kept => ?_⟩
  rw [Text.jsonObject_eq_iff.mp (read.trans written.symm)] at kept
  revert kept
  decide

end CommandLine

end PathCatalog
