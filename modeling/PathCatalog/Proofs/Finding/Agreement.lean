import PathCatalog.Proofs.Finding.Coverage
import PathCatalog.Proofs.Table.Search

namespace PathCatalog

/-- A text cut along the segments of a template: wildcards in literal text give way to any text
without a separator. -/
inductive Reads : List Segment → List Char → List (String × String) → Prop where
  | nil : Reads [] [] []
  | literal {text : String} {front back : List Char} {rest : List Segment}
      {texts : List (String × String)} (covers : Glob.Covers text.toList front)
      (later : Reads rest back texts) : Reads (.literal text :: rest) (front ++ back) texts
  | field {name text : String} {hint : Option Hint} {back : List Char} {rest : List Segment}
      {texts : List (String × String)} (later : Reads rest back texts) :
      Reads (.field name hint :: rest) (text.toList ++ back) ((name, text) :: texts)

/-- All readings of a path carry the same texts at the placeholders of some fields. -/
def Template.Unambiguous (template : Template) (names : List String) (path : String) : Prop :=
  ∀ left right, Reads template.segments path.toList left →
    Reads template.segments path.toList right → ∀ pair ∈ left, pair.1 ∈ names → pair ∈ right

/-- A combination's values stand at the placeholders of their fields, texts without a separator at
the others. -/
def Query.Follows (combination : FieldMap) (texts : List (String × String)) : Prop :=
  ∀ pair ∈ texts,
    match combination.get? pair.1 with
    | some value => pair.2 = value
    | none => separator ∉ pair.2.toList

/-- The texts of a reading follow one candidate of every constrained field. -/
def Query.Directs (query : Query) (texts : List (String × String)) : Prop :=
  ∃ combination ∈ query.product, Query.Follows combination texts

namespace Reads

open Segment Template

variable {segments : List Segment}

theorem names_eq {path : List Char} {texts : List (String × String)}
    (reads : Reads segments path texts) : texts.map Prod.fst = occurrences segments := by
  induction reads with
  | nil => rfl
  | literal _ _ ih => exact ih
  | field _ ih => rw [List.map_cons, ih, occurrences]

/-- The values that build a path read it, each at all places of its field. -/
theorem of_buildFrom {pattern path : String} {given : FieldMap}
    (built : buildFrom pattern given segments = .ok path) :
    Reads segments path.toList
      ((occurrences segments).map fun name => (name, (given.get? name).getD "")) := by
  induction segments generalizing path with
  | nil =>
      cases built
      exact .nil
  | cons segment rest ih =>
      cases segment with
      | literal text =>
          obtain ⟨others, later, rfl⟩ := buildFrom_literal_eq_ok.mp built
          rw [String.toList_append]
          exact .literal (Glob.covers_refl text.toList) (ih later)
      | field name hint =>
          obtain ⟨value, others, held, later, rfl⟩ := buildFrom_field_eq_ok.mp built
          rw [String.toList_append, occurrences, List.map_cons, held]
          exact .field (ih later)

/-- A text that a built pattern covers is read with texts that the values cover. -/
theorem of_covers {pattern search : String} {filling : FieldMap} {text : List Char}
    (searched : buildFrom pattern filling segments = .ok search)
    (covers : Glob.Covers search.toList text) :
    ∃ texts, Reads segments text texts ∧ ∀ pair ∈ texts, ∃ part,
      filling.get? pair.1 = some part ∧ Glob.Covers part.toList pair.2.toList := by
  induction segments generalizing search text with
  | nil =>
      cases searched
      cases covers
      exact ⟨[], .nil, fun pair member => nomatch member⟩
  | cons segment rest ih =>
      cases segment with
      | literal plain =>
          obtain ⟨others, later, rfl⟩ := buildFrom_literal_eq_ok.mp searched
          rw [String.toList_append, Glob.covers_append_iff] at covers
          obtain ⟨front, back, here, behind, rfl⟩ := covers
          obtain ⟨texts, reads, covered⟩ := ih later behind
          exact ⟨texts, .literal here reads, covered⟩
      | field name hint =>
          obtain ⟨part, others, held, later, rfl⟩ := buildFrom_field_eq_ok.mp searched
          rw [String.toList_append, Glob.covers_append_iff] at covers
          obtain ⟨front, back, here, behind, rfl⟩ := covers
          obtain ⟨texts, reads, covered⟩ := ih later behind
          have first : Glob.Covers part.toList (String.ofList front).toList := by
            rwa [String.toList_ofList]
          have cut := @Reads.field name (String.ofList front) hint _ _ _ reads
          rw [String.toList_ofList] at cut
          exact ⟨_, cut, List.forall_mem_cons.mpr ⟨⟨part, held, first⟩, covered⟩⟩

end Reads

/-- What the provider over a list answers is covered by the pattern. -/
theorem Provider.covers_of_mem_listed {paths answer : List String} {path pattern : String}
    (answered : (Provider.listed paths pattern).outcome = .ok answer) (member : path ∈ answer) :
    Glob.Covers pattern.toList path.toList := by
  rw [listed] at answered
  split at answered
  · cases answered
    cases member
  · cases answered
    exact (Glob.accepts_iff_covers pattern path).mp (List.mem_filter.mp member).2

namespace Query

variable {template : Template} {query : Query}

/-- A path that the search pattern of a combination covers has a reading that follows it. -/
theorem exists_following {combination : FieldMap} {pattern : String} {text : List Char}
    (plain : ∀ pair ∈ query.pairs, ∀ value ∈ pair.2.values, '*' ∉ value.toList)
    (choice : combination ∈ query.product)
    (searched : template.build (filled template.fields combination) = .ok pattern)
    (covers : Glob.Covers pattern.toList text) :
    ∃ texts, Reads template.segments text texts ∧ Follows combination texts := by
  obtain ⟨texts, reads, covered⟩ := Reads.of_covers searched covers
  refine ⟨texts, reads, fun pair inside => ?_⟩
  obtain ⟨part, spread, here⟩ := covered pair inside
  have field : pair.1 ∈ template.fields := by
    rw [Template.fields, Segment.mem_names, ← reads.names_eq]
    exact List.mem_map_of_mem inside
  rw [Query.get?_filled template.nodup_fields combination field] at spread
  cases chosen : combination.get? pair.1 with
  | some value =>
      obtain rfl : value = part := by simpa [chosen] using spread
      obtain ⟨candidates, asked, accepted⟩ := Query.accepts_of_chosen choice chosen
      have literal := plain _ (Entries.get?_eq_some_iff.mp asked) value
        (Candidates.accepts_iff.mp accepted)
      exact (String.toList_injective ((Glob.covers_plain_iff literal).mp here)).symm
  | none =>
      obtain rfl : wildcard = part := by simpa [chosen] using spread
      exact Glob.covers_wildcard_iff.mp here

/-- A path that a search pattern covers has a reading that follows the query. -/
theorem exists_directed {patterns : List String} {pattern : String} {text : List Char}
    (plain : ∀ pair ∈ query.pairs, ∀ value ∈ pair.2.values, '*' ∉ value.toList)
    (expanded : query.expand template = .ok patterns) (member : pattern ∈ patterns)
    (covers : Glob.Covers pattern.toList text) :
    ∃ texts, Reads template.segments text texts ∧ query.Directs texts := by
  obtain ⟨combination, choice, searched⟩ := (Query.mem_of_expand expanded).mp member
  obtain ⟨texts, reads, follows⟩ := exists_following plain choice searched covers
  exact ⟨texts, reads, combination, choice, follows⟩

/-- Where all readings of a path agree on the constrained fields, the values are accepted. -/
theorem accepts_of_directed {path : String} {given : FieldMap} {texts : List (String × String)}
    (known : ∀ name ∈ query.names, name ∈ template.fields)
    (reads : Reads template.segments path.toList texts) (directed : query.Directs texts)
    (built : template.build given = .ok path)
    (unambiguous : template.Unambiguous query.names path) :
    ∀ pair ∈ query.pairs, ∃ value, given.get? pair.1 = some value ∧
      pair.2.accepts value = true := by
  intro pair member
  obtain ⟨combination, choice, follows⟩ := directed
  obtain ⟨value, chosen, accepted⟩ :=
    Query.chosen_of_asked choice (Entries.get?_eq_some_iff.mpr member)
  have named : pair.1 ∈ query.names := List.mem_map_of_mem member
  obtain ⟨held, present⟩ := Template.get?_of_build built (known pair.1 named)
  have occurs : pair.1 ∈ texts.map Prod.fst := by
    rw [reads.names_eq, ← Segment.mem_names]
    exact known pair.1 named
  obtain ⟨⟨name, text⟩, inside, same⟩ := List.mem_map.mp occurs
  obtain rfl : name = pair.1 := same
  have carried := follows (pair.1, text) inside
  rw [chosen] at carried
  -- the values that build the path read it as well, so they carry the candidate
  have own := unambiguous texts _ reads (Reads.of_buildFrom built) _ inside named
  obtain ⟨other, _, carries⟩ := List.mem_map.mp own
  obtain ⟨rfl, rfl⟩ := Prod.mk.inj carries
  rw [present] at carried ⊢
  obtain rfl : held = value := carried
  exact ⟨held, rfl, accepted⟩

end Query

namespace Finder

variable {template : Template} {suffix : String} {paths : List String} {query : Query}
  {options : FindOptions} {table : Table}

/-- A found path has a reading that follows the query; if all its readings agree, its row does. -/
theorem directed_of_row
    (plain : ∀ pair ∈ query.pairs, ∀ value ∈ pair.2.values, '*' ∉ value.toList)
    (found : (Finder.find ⟨template, suffix, Provider.listed paths⟩ query options).outcome =
      .ok table) {row : Row} (member : row ∈ table.rows) :
    ∃ path, row.path = path ++ suffix ∧
      (∃ texts, Reads template.segments path.toList texts ∧ query.Directs texts) ∧
      (template.Unambiguous query.names path → table.meets query row = true) := by
  have known := fields_of_find found
  have columns := columns_of_find found
  obtain ⟨patterns, pattern, answer, path, expanded, inside, answered, listed, read, named⟩ :=
    origin_of_row found member
  obtain ⟨texts, reads, directed⟩ :=
    Query.exists_directed plain expanded inside (Provider.covers_of_mem_listed answered listed)
  refine ⟨path, named, ⟨texts, reads, directed⟩, fun unambiguous => ?_⟩
  rw [Table.meets_eq_true]
  intro pair constraint
  obtain ⟨value, held, accepted⟩ := Query.accepts_of_directed known reads directed
    (build_of_read found read) unambiguous pair constraint
  have distinct : table.columns.Nodup := columns ▸ template.nodup_fields
  have column : pair.1 ∈ table.columns :=
    columns ▸ known pair.1 (List.mem_map_of_mem constraint)
  rw [Table.get?_fieldMap distinct (aligned_of_find found member) column] at held
  exact Option.some.inj held ▸ accepted

/-- Searching a found table with the query that found it keeps every row whose readings agree on the
constrained fields. -/
theorem search_found (asked : query.isEmpty = false)
    (plain : ∀ pair ∈ query.pairs, ∀ value ∈ pair.2.values, '*' ∉ value.toList)
    (found : (Finder.find ⟨template, suffix, Provider.listed paths⟩ query options).outcome =
      .ok table) :
    table.search query = .ok ⟨table.columns, table.rows.filter (table.meets query)⟩ ∧
      (∀ row ∈ table.rows, ∃ path, row.path = path ++ suffix ∧
        (∃ texts, Reads template.segments path.toList texts ∧ query.Directs texts) ∧
        (template.Unambiguous query.names path → table.meets query row = true)) ∧
      ((∀ path, path ++ suffix ∈ table.paths → template.Unambiguous query.names path) →
        table.search query = .ok table) := by
  have searched : table.search query = _ := Table.search_eq asked fun pair member => by
    rw [columns_of_find found]
    exact fields_of_find found pair.1 (List.mem_map_of_mem member)
  refine ⟨searched, fun row member => directed_of_row plain found member, fun unambiguous => ?_⟩
  rw [searched, List.filter_eq_self.mpr]
  intro row member
  obtain ⟨path, named, _, kept⟩ := directed_of_row plain found member
  exact kept (unambiguous path (named ▸ List.mem_map_of_mem member))

/-- The query asks for `xy` and finds `xyz`, but the template reads that path as `x` and `yz`. -/
theorem search_drops_found_row :
    ¬ ∀ (template : Template) (suffix : String) (paths : List String) (query : Query)
      (options : FindOptions) (table : Table), query.isEmpty = false →
      (∀ pair ∈ query.pairs, ∀ value ∈ pair.2.values, '*' ∉ value.toList) →
      (Finder.find ⟨template, suffix, Provider.listed paths⟩ query options).outcome = .ok table →
      table.search query = .ok table := by
  intro always
  have kept := always ⟨"{a}{b}", [.field "a" none, .field "b" none], by decide +kernel⟩ "" ["xyz"]
    (Entries.ofList [("a", .one "xy")]) {} ⟨["a", "b"], [⟨"xyz", ["x", "yz"]⟩]⟩ (by decide)
    (by decide) (by decide +kernel)
  revert kept
  decide +kernel

/-- A path with one separator, read by two placeholders around a separator, is split there. -/
theorem reads_around_separator {texts : List (String × String)}
    (reads : Reads [.field "a" none, .literal "/", .field "b" none] ['x', '/', 'y'] texts) :
    texts = [("a", "x"), ("b", "y")] := by
  have split (front back : List Char) (joined : front ++ '/' :: back = ['x', '/', 'y']) :
      front = ['x'] ∧ back = ['y'] := by
    rcases front with _ | ⟨c, _ | ⟨d, _ | ⟨e, others⟩⟩⟩ <;> simp_all
  generalize whole : ['x', '/', 'y'] = path at reads
  cases reads with
  | @field _ first _ _ _ _ reads =>
      cases reads with
      | literal covers reads =>
          obtain rfl := (Glob.covers_plain_iff (by decide)).mp covers
          cases reads with
          | @field _ second _ _ _ _ reads =>
              cases reads
              rw [List.append_nil] at whole
              obtain ⟨before, after⟩ := split _ _ whole.symm
              obtain rfl : first = "x" := String.toList_injective before
              obtain rfl : second = "y" := String.toList_injective after
              rfl

/-- Around a separator there is one reading only, so the search returns the found table. -/
theorem search_found_separated :
    (⟨["a", "b"], [⟨"x/y", ["x", "y"]⟩]⟩ : Table).search (Entries.ofList [("a", .one "x")]) =
      .ok ⟨["a", "b"], [⟨"x/y", ["x", "y"]⟩]⟩ := by
  refine (@search_found
    ⟨"{a}/{b}", [.field "a" none, .literal "/", .field "b" none], by decide +kernel⟩ ""
    ["w/y", "x/y"] _ {} _ (by decide) (by decide) (by decide +kernel)).2.2
    fun path member left right first second => ?_
  obtain rfl : path = "x/y" := by simpa [Table.paths] using member
  rw [reads_around_separator first, reads_around_separator second]
  exact fun pair inside _ => inside

end Finder

end PathCatalog
