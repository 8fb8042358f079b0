import PathCatalog.Proofs.Finding.Pipeline
import PathCatalog.Proofs.Matching.RoundTrip
import PathCatalog.Proofs.Provider.Depth

namespace PathCatalog

open Segment

/-- A name holds just the separators of the literal text when no value at a placeholder holds one. -/
theorem Template.depth_eq_iff {pattern path : String} {given : FieldMap} {segments : List Segment}
    (built : buildFrom pattern given segments = .ok path) :
    depth path = (literalText segments).count separator ↔
      ∀ name ∈ occurrences segments, ∀ value, given.get? name = some value →
        separator ∉ value.toList := by
  have counted := @clean_iff_countP (· == separator)
    (fun name => ((given.get? name).getD "").toList) segments
  rw [render_of_buildFrom built] at counted
  apply counted.symm.trans
  apply forall₂_congr
  intro name member
  obtain ⟨value, held⟩ := get?_of_buildFrom built member
  simp only [held, Option.getD_some, Option.some.injEq, forall_eq', beq_eq_false_iff_ne]
  exact ⟨fun apart inside => apart separator inside rfl, fun absent c inside same =>
    absent (same ▸ inside)⟩

/-- Every value of an assignment that fits belongs to a field. -/
theorem Template.Fits.exists_field {template : Template} {path value : String}
    {values : List String} (fits : template.Fits path values) (member : value ∈ values) :
    ∃ name ∈ template.fields, (template.assign values).get? name = some value := by
  obtain ⟨index, inside, rfl⟩ := List.getElem_of_mem member
  have place : index < template.fields.length := fits.complete ▸ inside
  refine ⟨template.fields[index], List.getElem_mem place, ?_⟩
  rw [assign, Entries.get?_ofList_zip template.nodup_fields,
    idxOf?_of_mem (List.getElem_mem place), template.nodup_fields.idxOf_getElem, Option.bind_some,
    List.getElem?_eq_getElem inside]

/-- A query whose candidates hold no separator. -/
def Query.Level (query : Query) : Prop :=
  ∀ pair ∈ query.pairs, ∀ value ∈ pair.2.values, separator ∉ value.toList

instance (query : Query) : Decidable query.Level :=
  inferInstanceAs (Decidable (∀ pair ∈ query.pairs, ∀ value ∈ pair.2.values, _))

namespace Query

variable {query : Query} {combination : FieldMap}

/-- A combination without separators fills every field with a text without them. -/
theorem Level.filled {fields : List String} (level : query.Level) (distinct : fields.Nodup)
    (choice : combination ∈ query.product) {name part : String} (field : name ∈ fields)
    (spread : (Query.filled fields combination).get? name = some part) :
    separator ∉ part.toList := by
  rw [get?_filled distinct combination field] at spread
  cases chosen : combination.get? name with
  | some value =>
      obtain rfl : value = part := by simpa [chosen] using spread
      obtain ⟨candidates, asked, accepted⟩ := accepts_of_chosen choice chosen
      exact level _ (Entries.get?_eq_some_iff.mp asked) value (Candidates.accepts_iff.mp accepted)
  | none =>
      obtain rfl : wildcard = part := by simpa [chosen] using spread
      decide

/-- The search patterns hold the separators of the literal text only. -/
theorem Level.depth_eq {template : Template} {pattern : String} (level : query.Level)
    (choice : combination ∈ query.product)
    (searched : template.build (Query.filled template.fields combination) = .ok pattern) :
    depth pattern = (literalText template.segments).count separator := by
  apply (Template.depth_eq_iff searched).mpr
  intro name member part spread
  exact level.filled template.nodup_fields choice (mem_names.mpr member) spread

end Query

namespace Finder

variable {finder : Finder} {query : Query} {options : FindOptions} {table : Table}

/-- From a path with the separators of its pattern only values without them are read. -/
theorem whole_of_read {patterns answer values : List String} {pattern path : String}
    (keeps : finder.provider.KeepsDepth) (level : query.Level)
    (expanded : query.expand finder.template = .ok patterns) (inside : pattern ∈ patterns)
    (answered : (finder.provider pattern).outcome = .ok answer) (listed : path ∈ answer)
    (read : finder.template.reading? path = some values) :
    ∀ name ∈ finder.template.fields, ∀ value,
      (finder.template.assign values).get? name = some value → separator ∉ value.toList := by
  obtain ⟨combination, choice, searched⟩ := (Query.mem_of_expand expanded).mp inside
  have same : depth path = (literalText finder.template.segments).count separator :=
    (keeps pattern answer answered path listed).trans (level.depth_eq choice searched)
  have apart := (Template.depth_eq_iff (Template.fits_of_reading? read).spelled).mp same
  exact fun name field => apart name (mem_names.mp field)

/-- What a provider that keeps the separators of a pattern leads to has none of them in a value. -/
theorem whole_of_keepsDepth (keeps : finder.provider.KeepsDepth) (level : query.Level)
    (found : (finder.find query options).outcome = .ok table) {row : Row} (member : row ∈ table.rows)
    {value : String} (held : value ∈ row.values) : separator ∉ value.toList := by
  obtain ⟨patterns, pattern, answer, path, expanded, inside, answered, listed, read, _⟩ :=
    origin_of_row found member
  obtain ⟨name, field, given⟩ := (Template.fits_of_reading? read).exists_field held
  exact whole_of_read keeps level expanded inside answered listed read name field value given

/-- When no candidate of the query holds a separator, no value of a found row does. -/
theorem values_within_components {template : Template} {suffix : String} (level : query.Level) :
    (∀ paths,
      (Finder.find ⟨template, suffix, Provider.listed paths⟩ query options).outcome = .ok table →
        ∀ row ∈ table.rows, ∀ value ∈ row.values, separator ∉ value.toList) ∧
    ∀ host : Host, host.tree.Whole →
      (Finder.find ⟨template, suffix, host.provider⟩ query options).outcome = .ok table →
        ∀ row ∈ table.rows, ∀ value ∈ row.values, separator ∉ value.toList := by
  constructor
  · intro paths found row member value held
    exact whole_of_keepsDepth (Provider.keepsDepth_listed paths) level found member held
  · intro host whole found row member value held
    exact whole_of_keepsDepth (Host.keepsDepth_provider whole) level found member held

/-- A value that stands twice in a path reaches over no separator, in a list and in a tree. -/
theorem values_within_components_repeated :
    let template : Template := ⟨"{a}/{a}_{b}/", [.field "a" none, .literal "/", .field "a" none,
      .literal "_", .field "b" none, .literal "/"], by decide +kernel⟩
    let query : Query := Entries.ofList [("a", .list ["x", "y"])]
    let tree : Tree :=
      ⟨[(["x"], .directory), (["x", "x_1"], .directory), (["x", "x_2"], .file "")]⟩
    let listed : Table := ⟨["a", "b"], [⟨"x/x_1/*", ["x", "1"]⟩, ⟨"y/y_2/*", ["y", "2"]⟩]⟩
    let walked : Table := ⟨["a", "b"], [⟨"x/x_1/*", ["x", "1"]⟩]⟩
    (Finder.find ⟨template, "*", Provider.listed ["x/x_1/f", "x/y", "y/y_2/g"]⟩ query {}).outcome =
        .ok listed ∧
      (∀ row ∈ listed.rows, ∀ value ∈ row.values, separator ∉ value.toList) ∧
      (Finder.find ⟨template, "*", Host.provider ⟨tree, [], "."⟩⟩ query {}).outcome = .ok walked ∧
      ∀ row ∈ walked.rows, ∀ value ∈ row.values, separator ∉ value.toList := by
  intro template query tree listed walked
  have level : query.Level := by decide +kernel
  have fromList : (Finder.find ⟨template, "*", Provider.listed ["x/x_1/f", "x/y", "y/y_2/g"]⟩
      query {}).outcome = .ok listed := by decide +kernel
  have fromTree : (Finder.find ⟨template, "*", Host.provider ⟨tree, [], "."⟩⟩ query {}).outcome =
      .ok walked := by decide +kernel
  have whole : tree.Whole := by decide +kernel
  exact ⟨fromList, (values_within_components level).1 _ fromList, fromTree,
    (values_within_components level).2 ⟨tree, [], "."⟩ whole fromTree⟩

end Finder

end PathCatalog
