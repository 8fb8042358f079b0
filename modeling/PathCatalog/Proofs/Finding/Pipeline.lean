import Mathlib.Data.List.Forall2
import PathCatalog.Finder
import PathCatalog.Proofs.Matching.Captures
import PathCatalog.Proofs.Query.Expansion
import PathCatalog.Proofs.Table.Assembly

namespace PathCatalog

/-- The row of a path that the template reads. -/
def rowOf? (template : Template) (suffix path : String) : Option Row :=
  (template.reading? path).map fun values => ⟨path ++ suffix, values⟩

theorem rowOf?_eq_some {template : Template} {suffix path : String} {row : Row} :
    rowOf? template suffix path = some row ↔
      template.reading? path = some row.values ∧ row.path = path ++ suffix := by
  rw [rowOf?, Option.map_eq_some_iff]
  constructor
  · intro holds
    obtain ⟨values, read, rfl⟩ := holds
    exact ⟨read, rfl⟩
  · intro holds
    obtain ⟨read, named⟩ := holds
    exact ⟨row.values, read, by rw [← named]⟩

section Parsing

variable {template : Template} {suffix : String} {policy : OnParseError}

/-- No policy tolerates a path on which the engine stops. -/
theorem outcome_parsePath_of_overflows {path : String} (full : template.Overflows path) :
    (parsePath template suffix policy path).outcome = .error (.engine .tooManyBranches) := by
  rw [parsePath, Logged.outcome_bind, Template.outcome_captures_of_overflows full]
  rfl

/-- A path gives its row, if there is one; only the strict policy insists on one. -/
theorem outcome_parsePath_eq_ok {path : String} {found : Option Row} :
    (parsePath template suffix policy path).outcome = .ok found ↔
      ¬ template.Overflows path ∧
        (policy = .raise → (template.reading? path).isSome = true) ∧
        rowOf? template suffix path = found := by
  by_cases full : template.Overflows path
  · rw [outcome_parsePath_of_overflows full]
    exact ⟨nofun, fun holds => absurd full holds.1⟩
  · rw [parsePath, Logged.outcome_bind, Template.outcome_captures full, bind_eq_ok, rowOf?]
    cases template.reading? path with
    | some values => simp [full]
    | none => cases policy <;> simp [bind_eq_ok, full]

/-- The rows are those of the paths that the template reads, in the order of the paths. -/
theorem outcome_parsePaths_eq_ok {paths : List String} {rows : List Row} :
    (parsePaths template suffix policy paths).outcome = .ok rows ↔
      (∀ path ∈ paths, ¬ template.Overflows path) ∧
        (policy = .raise → ∀ path ∈ paths, (template.reading? path).isSome = true) ∧
        paths.filterMap (rowOf? template suffix) = rows := by
  have each (found : List (Option Row)) :
      (Logged.each (parsePath template suffix policy) paths).outcome = .ok found ↔
        (∀ path ∈ paths, ¬ template.Overflows path) ∧
          (∀ path ∈ paths, policy = .raise → (template.reading? path).isSome = true) ∧
          paths.map (rowOf? template suffix) = found := by
    simp only [Logged.outcome_each_eq_ok, outcome_parsePath_eq_ok, List.forall₂_and_left]
    rw [← List.forall₂_map_left_iff (R := Eq), List.forall₂_eq_eq_eq]
  rw [parsePaths, Logged.outcome_bind_eq_ok]
  simp only [each, Logged.outcome_pure, Except.ok.injEq]
  constructor
  · intro holds
    obtain ⟨found, ⟨settled, strict, rfl⟩, rfl⟩ := holds
    rw [List.filterMap_map]
    exact ⟨settled, fun raised path member => strict path member raised, rfl⟩
  · intro holds
    obtain ⟨settled, strict, rfl⟩ := holds
    refine ⟨_, ⟨settled, fun path member raised => strict raised path member, rfl⟩, ?_⟩
    rw [List.filterMap_map]
    rfl

/-- Paths are parsed unless the engine stops on one or the strict policy meets an unreadable one. -/
theorem exists_parsePaths_iff {paths : List String} :
    (∃ rows, (parsePaths template suffix policy paths).outcome = .ok rows) ↔
      (∀ path ∈ paths, ¬ template.Overflows path) ∧
        (policy = .raise →
          ∀ path ∈ paths, ∃ fields, (template.parse path).outcome = .ok fields) := by
  have read (path : String) : (template.reading? path).isSome = true ↔
      ∃ fields, (template.parse path).outcome = .ok fields := by
    simp [Template.outcome_parse_eq_ok, Option.isSome_iff_exists]
  simp only [outcome_parsePaths_eq_ok, read, exists_and_left, exists_eq', and_true]

/-- Parsing fails only with a path on which the engine stops or one that is not read. -/
theorem of_parsePath_eq_error {path : String} {fault : Failure}
    (failed : (parsePath template suffix policy path).outcome = .error fault) :
    template.Overflows path ∧ fault = .engine .tooManyBranches ∨
      (policy = .raise ∧ ¬ template.Overflows path ∧ template.reading? path = none) ∧
        fault = .unreadablePath path template.pattern := by
  by_cases full : template.Overflows path
  · rw [outcome_parsePath_of_overflows full] at failed
    exact .inl ⟨full, (Except.error.inj failed).symm⟩
  · rw [parsePath, Logged.outcome_bind, Template.outcome_captures full] at failed
    cases read : template.reading? path with
    | some values => simp [read, bind_eq_error] at failed
    | none => cases policy <;> simp_all [bind_eq_error]

theorem of_parsePaths_eq_error {paths : List String} {fault : Failure}
    (failed : (parsePaths template suffix policy paths).outcome = .error fault) :
    ∃ path ∈ paths, template.Overflows path ∧ fault = .engine .tooManyBranches ∨
      (policy = .raise ∧ ¬ template.Overflows path ∧ template.reading? path = none) ∧
        fault = .unreadablePath path template.pattern := by
  rcases Logged.outcome_bind_eq_error.mp failed with each | ⟨_, _, impossible⟩
  · obtain ⟨path, member, one⟩ := Logged.of_each_eq_error each
    exact ⟨path, member, of_parsePath_eq_error one⟩
  · cases impossible

/-- The values of the rows are those that are read from the paths. -/
theorem values_of_parsePaths {paths : List String} {rows : List Row}
    (parsed : (parsePaths template suffix policy paths).outcome = .ok rows) :
    rows.map Row.values = paths.filterMap template.reading? := by
  obtain ⟨_, _, rfl⟩ := outcome_parsePaths_eq_ok.mp parsed
  rw [List.map_filterMap]
  refine List.filterMap_congr fun path _ => ?_
  simp [rowOf?, Function.comp_def]

/-- The rows of the paths always make a table. -/
theorem fromRows_of_parsePaths {paths : List String} {rows : List Row}
    (parsed : (parsePaths template suffix policy paths).outcome = .ok rows) :
    Table.fromRows template.fields rows = .ok ⟨template.fields, rows⟩ := by
  refine Table.fromRows_eq_ok.mpr ⟨template.nodup_fields, fun row member => ?_, rfl⟩
  have values : row.values ∈ paths.filterMap template.reading? := by
    rw [← values_of_parsePaths parsed]
    exact List.mem_map_of_mem member
  obtain ⟨path, _, read⟩ := List.mem_filterMap.mp values
  exact (Template.fits_of_reading? read).complete

end Parsing

namespace Finder

theorem outcome_collectOne_eq_ok {finder : Finder} {pattern : String} {paths : List String} :
    (finder.collectOne pattern).outcome = .ok paths ↔
      ∃ answer, (finder.provider pattern).outcome = .ok answer ∧
        Text.naturalSort answer = paths := by
  simp [collectOne, bind_eq_ok]

/-- The provider has answered every pattern, and its answers are collected in some order. -/
theorem answers_of_collect {finder : Finder} {patterns paths : List String}
    (collected : (finder.collect patterns).outcome = .ok paths) :
    ∃ answers, List.Forall₂ (fun pattern answer => (finder.provider pattern).outcome = .ok answer)
        patterns answers ∧ paths.Perm answers.flatten := by
  obtain ⟨parts, each, same⟩ := Logged.outcome_bind_eq_ok.mp collected
  obtain rfl : parts.flatten = paths := Except.ok.inj same
  have worked := Logged.outcome_each_eq_ok.mp each
  clear collected same each
  induction worked with
  | nil => exact ⟨[], .nil, .nil⟩
  | cons one _ ih =>
      obtain ⟨answer, answered, rfl⟩ := outcome_collectOne_eq_ok.mp one
      obtain ⟨answers, others, same⟩ := ih
      exact ⟨answer :: answers, .cons answered others, (List.mergeSort_perm answer _).append same⟩

/-- The collected paths are those of the provider's answers. -/
theorem mem_of_collect {finder : Finder} {patterns paths : List String}
    (collected : (finder.collect patterns).outcome = .ok paths) {path : String} :
    path ∈ paths ↔ ∃ pattern ∈ patterns, ∃ answer,
      (finder.provider pattern).outcome = .ok answer ∧ path ∈ answer := by
  obtain ⟨answers, answered, same⟩ := answers_of_collect collected
  rw [same.mem_iff]
  exact mem_flatten_of_forall₂_ok answered

/-- Collecting fails only as the provider does. -/
theorem of_collect_eq_error {finder : Finder} {patterns : List String} {fault : Failure}
    (failed : (finder.collect patterns).outcome = .error fault) :
    ∃ pattern ∈ patterns, (finder.provider pattern).outcome = .error fault := by
  rcases Logged.outcome_bind_eq_error.mp failed with each | ⟨_, _, impossible⟩
  · obtain ⟨pattern, asked, one⟩ := Logged.of_each_eq_error each
    refine ⟨pattern, asked, ?_⟩
    simpa [collectOne, bind_eq_error] using one
  · cases impossible

/-- From a provider that never fails everything is collected. -/
theorem exists_collect {finder : Finder}
    (answers : ∀ pattern, ∃ answer, (finder.provider pattern).outcome = .ok answer)
    (patterns : List String) : ∃ paths, (finder.collect patterns).outcome = .ok paths := by
  cases collected : (finder.collect patterns).outcome with
  | ok paths => exact ⟨paths, rfl⟩
  | error fault =>
      obtain ⟨pattern, _, failed⟩ := of_collect_eq_error collected
      obtain ⟨answer, answered⟩ := answers pattern
      cases failed.symm.trans answered

/-- A provider with one path for each pattern gives these paths in their order. -/
theorem collect_of_single (template : Template) (suffix : String) (reply : String → String)
    (patterns : List String) :
    (Finder.collect ⟨template, suffix, fun pattern => .done [reply pattern]⟩ patterns).outcome =
      .ok (patterns.map reply) := by
  refine Logged.outcome_bind_eq_ok.mpr ⟨patterns.map fun pattern => [reply pattern],
    Logged.outcome_each_eq_ok.mpr ?_, ?_⟩
  · rw [List.forall₂_map_right_iff, List.forall₂_same]
    intro pattern _
    exact outcome_collectOne_eq_ok.mpr ⟨[reply pattern], rfl, List.mergeSort_singleton _⟩
  · rw [← List.flatMap_def, ← List.map_eq_flatMap]
    rfl

/-- Without a path the table has no rows, and the strict policy has none at all. -/
theorem outcome_nothing_eq_ok {finder : Finder} {policy : OnEmpty} {patterns : List String}
    {table : Table} :
    (finder.nothing policy patterns).outcome = .ok table ↔
      policy ≠ .raise ∧ Table.new finder.template.fields = table := by
  cases policy <;> simp [nothing, bind_eq_ok]

theorem of_nothing_eq_error {finder : Finder} {policy : OnEmpty} {patterns : List String} {fault : Failure}
    (failed : (finder.nothing policy patterns).outcome = .error fault) :
    fault = .nothingFound patterns := by
  cases policy <;> simp_all [nothing, bind_eq_error]

/-- Once the paths are parsed only the check for repeated metadata can fail. -/
theorem outcome_tabulate_of_parsed {finder : Finder} {policy : OnParseError} {paths : List String}
    {rows : List Row}
    (parsed : (parsePaths finder.template finder.suffix policy paths).outcome = .ok rows) :
    (finder.tabulate policy paths).outcome =
      (Table.ensureUnique ⟨finder.template.fields, rows⟩).map fun _ =>
        ⟨finder.template.fields, rows⟩ := by
  simp only [tabulate, Logged.outcome_bind, parsed, Logged.outcome_ofExcept, Logged.outcome_note]
  change (Table.fromRows finder.template.fields rows >>= _) = _
  rw [fromRows_of_parsePaths parsed]
  cases unique : Table.ensureUnique ⟨finder.template.fields, rows⟩ with
  | error fault => exact bind_eq_error.mpr (.inr ⟨_, rfl, bind_eq_error.mpr (.inl unique)⟩)
  | ok _ => exact bind_eq_ok.mpr ⟨_, rfl, bind_eq_ok.mpr ⟨_, unique, rfl⟩⟩

/-- A table that was found holds the rows of the collected paths, and its metadata is unique. -/
theorem of_find_eq_ok {finder : Finder} {query : Query} {options : FindOptions} {table : Table}
    (found : (finder.find query options).outcome = .ok table) :
    ∃ patterns paths, query.expand finder.template = .ok patterns ∧
      (finder.collect patterns).outcome = .ok paths ∧
      (∀ path ∈ paths, ¬ finder.template.Overflows path) ∧
      table = ⟨finder.template.fields, paths.filterMap (rowOf? finder.template finder.suffix)⟩ ∧
      (table.rows.map Row.values).Nodup := by
  obtain ⟨patterns, expanded, found⟩ := Logged.outcome_bind_eq_ok.mp found
  obtain ⟨_, _, found⟩ := Logged.outcome_bind_eq_ok.mp found
  obtain ⟨paths, collected, found⟩ := Logged.outcome_bind_eq_ok.mp found
  refine ⟨patterns, paths, expanded, collected, ?_⟩
  split at found
  next none =>
    obtain rfl : paths = [] := by simpa using none
    obtain ⟨_, rfl⟩ := outcome_nothing_eq_ok.mp found
    exact ⟨nofun, rfl, List.nodup_nil⟩
  next some =>
    obtain ⟨rows, parsed, found⟩ := Logged.outcome_bind_eq_ok.mp found
    obtain ⟨_, _, found⟩ := Logged.outcome_bind_eq_ok.mp found
    obtain ⟨built, assembled, found⟩ := Logged.outcome_bind_eq_ok.mp found
    obtain ⟨_, unique, found⟩ := Logged.outcome_bind_eq_ok.mp found
    obtain ⟨_, _, found⟩ := Logged.outcome_bind_eq_ok.mp found
    obtain rfl : built = table := Except.ok.inj found
    obtain ⟨_, _, rfl⟩ := Table.fromRows_eq_ok.mp assembled
    obtain ⟨settled, _, rfl⟩ := outcome_parsePaths_eq_ok.mp parsed
    exact ⟨settled, rfl, Table.ensureUnique_eq_ok.mp unique⟩

section Found

variable {finder : Finder} {query : Query} {options : FindOptions} {table : Table}

theorem columns_of_find (found : (finder.find query options).outcome = .ok table) :
    table.columns = finder.template.fields := by
  obtain ⟨_, _, _, _, _, rfl, _⟩ := of_find_eq_ok found
  rfl

/-- A search succeeds only with constraints on fields of the template. -/
theorem fields_of_find (found : (finder.find query options).outcome = .ok table) :
    ∀ name ∈ query.names, name ∈ finder.template.fields := by
  obtain ⟨_, _, expanded, _⟩ := of_find_eq_ok found
  exact (Query.expand_eq_ok.mp expanded).1

/-- Every found row was read from a path that the provider answered to a search pattern. -/
theorem origin_of_row (found : (finder.find query options).outcome = .ok table) {row : Row}
    (member : row ∈ table.rows) :
    ∃ patterns pattern answer path, query.expand finder.template = .ok patterns ∧
      pattern ∈ patterns ∧ (finder.provider pattern).outcome = .ok answer ∧ path ∈ answer ∧
      finder.template.reading? path = some row.values ∧ row.path = path ++ finder.suffix := by
  obtain ⟨patterns, paths, expanded, collected, _, rfl, _⟩ := of_find_eq_ok found
  obtain ⟨path, present, read⟩ := List.mem_filterMap.mp member
  obtain ⟨pattern, asked, answer, answered, inside⟩ := (mem_of_collect collected).mp present
  exact ⟨patterns, pattern, answer, path, expanded, asked, answered, inside, rowOf?_eq_some.mp read⟩

theorem path_of_row (found : (finder.find query options).outcome = .ok table) {row : Row}
    (member : row ∈ table.rows) :
    ∃ path, finder.template.reading? path = some row.values ∧
      row.path = path ++ finder.suffix := by
  obtain ⟨_, _, _, path, _, _, _, _, read, named⟩ := origin_of_row found member
  exact ⟨path, read, named⟩

/-- The record of a found row builds the path that it was read from. -/
theorem build_of_read (found : (finder.find query options).outcome = .ok table) {row : Row}
    {path : String} (read : finder.template.reading? path = some row.values) :
    finder.template.build (table.fieldMap row) = .ok path := by
  rw [Table.fieldMap, columns_of_find found]
  exact (Template.fits_of_reading? read).spelled

/-- Found rows have a value for every column. -/
theorem aligned_of_find (found : (finder.find query options).outcome = .ok table) {row : Row}
    (member : row ∈ table.rows) : row.values.length = table.columns.length := by
  obtain ⟨_, read, _⟩ := path_of_row found member
  rw [columns_of_find found]
  exact (Template.fits_of_reading? read).complete

end Found

end Finder

end PathCatalog
