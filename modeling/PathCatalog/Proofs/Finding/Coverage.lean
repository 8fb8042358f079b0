import PathCatalog.Proofs.Finding.Pipeline
import PathCatalog.Proofs.Glob.Coverage

namespace PathCatalog

/-- A query lets a field hold its candidates, and any text without a separator when it has none. -/
def Query.allows (query : Query) (name value : String) : Bool :=
  match query.get? name with
  | some candidates => candidates.accepts value
  | none => !value.toList.contains separator

theorem Query.allows_of_some {query : Query} {name value : String} {candidates : Candidates}
    (asked : query.get? name = some candidates) :
    query.allows name value = candidates.accepts value := by
  rw [allows, asked]

theorem Query.allows_of_none {query : Query} {name value : String}
    (free : query.get? name = none) :
    query.allows name value = true ↔ separator ∉ value.toList := by
  rw [allows, free]
  simp

/-- Values that are covered field by field build a name that is covered. -/
theorem Template.covers_buildFrom {pattern : String} {filling given : FieldMap}
    {segments : List Segment} {search path : String}
    (searched : buildFrom pattern filling segments = .ok search)
    (built : buildFrom pattern given segments = .ok path)
    (covered : ∀ name ∈ Segment.occurrences segments, ∀ part value,
      filling.get? name = some part → given.get? name = some value →
        Glob.Covers part.toList value.toList) :
    Glob.Covers search.toList path.toList := by
  induction segments generalizing search path with
  | nil =>
      cases searched
      cases built
      exact .nil
  | cons segment rest ih =>
      cases segment with
      | literal text =>
          obtain ⟨parts, partsBuilt, rfl⟩ := buildFrom_literal_eq_ok.mp searched
          obtain ⟨values, valuesBuilt, rfl⟩ := buildFrom_literal_eq_ok.mp built
          rw [String.toList_append, String.toList_append]
          exact (Glob.covers_refl text.toList).append (ih partsBuilt valuesBuilt covered)
      | field name hint =>
          obtain ⟨part, parts, filled, partsBuilt, rfl⟩ := buildFrom_field_eq_ok.mp searched
          obtain ⟨value, values, held, valuesBuilt, rfl⟩ := buildFrom_field_eq_ok.mp built
          rw [String.toList_append, String.toList_append]
          have here := covered name List.mem_cons_self part value filled held
          exact here.append (ih partsBuilt valuesBuilt fun other member =>
            covered other (List.mem_cons_of_mem _ member))

/-- A listed path is answered to every pattern that covers it, unless the path is a directory. -/
theorem Provider.mem_listed {paths : List String} {path pattern : String} (listed : path ∈ paths)
    (named : path ≠ "") (file : endsInSeparator path = false)
    (covers : Glob.Covers pattern.toList path.toList) :
    ∃ answer, (Provider.listed paths pattern).outcome = .ok answer ∧ path ∈ answer := by
  have asked : pattern.isEmpty = false := by
    rw [← Bool.not_eq_true, String.isEmpty_iff]
    intro same
    subst same
    have empty := (Glob.covers_plain_iff (by decide)).mp covers
    exact named (String.toList_injective empty.symm)
  have files : candidates paths pattern = paths := by
    refine if_neg fun ends => ?_
    rw [Glob.endsInSeparator_of_covers covers ends] at file
    cases file
  rw [Provider.listed, asked, files]
  exact ⟨_, rfl, List.mem_filter.mpr ⟨listed, (Glob.accepts_iff_covers pattern path).mpr covers⟩⟩

/-- Allowed values make a combination whose search pattern covers the path that they build. -/
theorem Query.exists_covering {template : Template} {query : Query} {patterns : List String}
    {given : FieldMap} {path : String} (expanded : query.expand template = .ok patterns)
    (built : template.build given = .ok path)
    (allowed : ∀ name ∈ template.fields, ∀ value, given.get? name = some value →
      query.allows name value = true) :
    ∃ pattern ∈ patterns, Glob.Covers pattern.toList path.toList := by
  obtain ⟨known, _⟩ := Query.expand_eq_ok.mp expanded
  have accepted : ∀ pair ∈ query.pairs,
      pair.2.accepts ((given.get? pair.1).getD "") = true := by
    intro pair member
    have field := known pair.1 (List.mem_map_of_mem member)
    obtain ⟨value, held⟩ := Template.get?_of_build built field
    have chosen := allowed pair.1 field value held
    rw [Query.allows_of_some (Entries.get?_eq_some_iff.mpr member)] at chosen
    rwa [held]
  obtain ⟨combination, member, chosen⟩ :=
    Query.exists_combination (fun name => (given.get? name).getD "") accepted
  have filled (name : String) (field : name ∈ template.fields) :=
    Query.get?_filled template.nodup_fields combination field
  obtain ⟨pattern, searched⟩ := Template.exists_build fun name field => ⟨_, filled name field⟩
  refine ⟨pattern, (Query.mem_of_expand expanded).mpr ⟨combination, member, searched⟩, ?_⟩
  refine Template.covers_buildFrom searched built fun name occurs part value spread held => ?_
  have field : name ∈ template.fields := Segment.mem_names.mpr occurs
  have choice := allowed name field value held
  rw [filled name field, chosen name] at spread
  cases asked : query.get? name with
  | some candidates =>
      obtain rfl : value = part := by simpa [asked, held] using spread
      exact Glob.covers_refl value.toList
  | none =>
      obtain rfl : wildcard = part := by simpa [asked] using spread
      exact Glob.covers_wildcard_iff.mpr ((Query.allows_of_none asked).mp choice)

namespace Finder

/-- A listed path that admitted and allowed values build is in every found table, unless the attempt
to read it is cut off. -/
theorem listed_path_found {template : Template} {suffix path : String} {paths : List String}
    {query : Query} {options : FindOptions} {table : Table} {given : FieldMap}
    (listed : path ∈ paths) (named : path ≠ "") (file : endsInSeparator path = false)
    (built : template.build given = .ok path)
    (admitted : ∀ name ∈ template.fields, ∀ value, given.get? name = some value →
      (template.shapeOf name).admits value.toList = true)
    (allowed : ∀ name ∈ template.fields, ∀ value, given.get? name = some value →
      query.allows name value = true)
    (finished : ¬ template.GivesUp path)
    (found : (Finder.find ⟨template, suffix, Provider.listed paths⟩ query options).outcome =
      .ok table) :
    path ++ suffix ∈ table.paths := by
  obtain ⟨patterns, gathered, expanded, collected, settled, rfl, _⟩ := of_find_eq_ok found
  obtain ⟨pattern, asked, covers⟩ := Query.exists_covering expanded built allowed
  obtain ⟨answer, answered, member⟩ := Provider.mem_listed listed named file covers
  have present : path ∈ gathered :=
    (mem_of_collect collected).mpr ⟨pattern, asked, answer, answered, member⟩
  -- the template may read other values than the given ones, but it reads the path
  have fits := Template.fits_of_build built admitted
  obtain ⟨values, read⟩ := Option.isSome_iff_exists.mp
    (Template.isSome_reading? finished (settled path present) fits)
  have row : rowOf? template suffix path = some ⟨path ++ suffix, values⟩ :=
    rowOf?_eq_some.mpr ⟨read, rfl⟩
  exact List.mem_map.mpr ⟨_, List.mem_filterMap.mpr ⟨path, present, row⟩, rfl⟩

/-- The path is found although the template splits it in another way than the given values do. -/
theorem listed_path_found_split_otherwise :
    "*/xxyxx.nc" ∈ (⟨["a", "b"], [⟨"*/xxyxx.nc", ["x", "xyx"]⟩]⟩ : Table).paths := by
  let template : Template :=
    ⟨"*/{a}{b}{a}", [.literal "*/", .field "a" none, .field "b" none, .field "a" none],
      by decide +kernel⟩
  let query : Query := Entries.ofList [("a", .list ["z", "xx"])]
  let given : FieldMap := Entries.ofList [("a", "xx"), ("b", "y")]
  exact @listed_path_found template ".nc" "*/xxyxx" ["q", "*/xxyxx"] query {} _ given (by decide)
    (by decide) (by decide +kernel) (by decide +kernel) (by decide +kernel) (by decide +kernel)
    (by decide +kernel) (by decide +kernel)

end Finder

end PathCatalog
