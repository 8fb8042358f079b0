import Mathlib.Data.List.Nodup
import PathCatalog.Config
import PathCatalog.Proofs.Finding.Pipeline

namespace PathCatalog

namespace Provider

/-- Repeated metadata is found when a table is put together, never while paths are listed. -/
def Impartial (provider : Provider) : Prop :=
  ∀ pattern duplicates, (provider pattern).outcome ≠ .error (.repeatedMetadata duplicates)

theorem impartial_listed (paths : List String) : (listed paths).Impartial := by
  intro pattern duplicates
  rw [listed]
  split <;> simp

end Provider

namespace Host

theorem of_walkNowhere_eq_error {base : String} {obstacle : Obstacle}
    {components : List Component} {fault : Failure}
    (failed : (walkNowhere base obstacle components).outcome = .error fault) :
    fault = .unlistable := by
  cases components with
  | nil => cases failed
  | cons component rest =>
      cases component with
      | name text => cases failed
      | wild segments => cases obstacle <;> simp_all [walkNowhere, bind_eq_error]

/-- A search in a tree fails only where its base cannot be listed. -/
theorem of_matching_eq_error {host : Host} {pattern : String} {fault : Failure}
    (failed : (host.matching pattern).outcome = .error fault) : fault = .unlistable := by
  simp only [matching] at failed
  split at failed
  · cases failed
  · split at failed
    · cases failed
    · exact of_walkNowhere_eq_error failed

theorem impartial_provider (host : Host) : host.provider.Impartial := by
  intro pattern duplicates failed
  rw [provider] at failed
  split at failed
  · cases failed
  · rcases Logged.outcome_bind_eq_error.mp failed with matching | ⟨_, _, impossible⟩
    · cases of_matching_eq_error matching
    · simp [bind_eq_error] at impossible

end Host

/-- Both providers that a configuration can name list paths only. -/
theorem Config.impartial_provider (config : Config) (host : Host) :
    (config.provider host).Impartial := by
  rw [Config.provider]
  split
  · exact Provider.impartial_listed _
  · exact host.impartial_provider

section Counting

variable {template : Template} {paths : List String}

/-- The values of a path come as often as the path does. -/
theorem count_filterMap_reading? {path : String} {values : List String}
    (read : template.reading? path = some values) :
    (paths.filterMap template.reading?).count values = paths.count path := by
  rw [List.count_filterMap, List.count]
  refine List.countP_congr fun other _ => ?_
  rw [beq_iff_eq, beq_iff_eq]
  constructor
  · intro again
    exact Template.eq_of_parse_eq (Template.outcome_parse_eq_ok.mpr ⟨values, again, rfl⟩)
      (Template.outcome_parse_eq_ok.mpr ⟨values, read, rfl⟩)
  · intro same
    rwa [same]

/-- Values come twice when some path that is read does. -/
theorem not_nodup_filterMap_reading?_iff :
    ¬ (paths.filterMap template.reading?).Nodup ↔
      ∃ path fields, (template.parse path).outcome = .ok fields ∧ 2 ≤ paths.count path := by
  rw [List.nodup_iff_count_le_one, not_forall]
  constructor
  · intro holds
    obtain ⟨values, twice⟩ := holds
    have present : values ∈ paths.filterMap template.reading? := by
      rw [← List.count_pos_iff]
      omega
    obtain ⟨path, _, read⟩ := List.mem_filterMap.mp present
    rw [count_filterMap_reading? read] at twice
    exact ⟨path, _, Template.outcome_parse_eq_ok.mpr ⟨values, read, rfl⟩, by omega⟩
  · intro holds
    obtain ⟨path, fields, parsed, twice⟩ := holds
    obtain ⟨values, read, _⟩ := Template.outcome_parse_eq_ok.mp parsed
    refine ⟨values, ?_⟩
    rw [count_filterMap_reading? read]
    omega

end Counting

namespace Finder

variable {finder : Finder} {query : Query} {options : FindOptions}

/-- A table fails on repeated metadata when the paths are parsed and values come twice. -/
theorem outcome_tabulate_repeats_iff {policy : OnParseError} {paths : List String} :
    (∃ duplicates, (finder.tabulate policy paths).outcome = .error (.repeatedMetadata duplicates)) ↔
      (∃ rows, (parsePaths finder.template finder.suffix policy paths).outcome = .ok rows) ∧
        ¬ (paths.filterMap finder.template.reading?).Nodup := by
  cases parsed : (parsePaths finder.template finder.suffix policy paths).outcome with
  | error fault =>
      obtain ⟨path, _, ⟨_, rfl⟩ | ⟨_, rfl⟩⟩ := of_parsePaths_eq_error parsed
      all_goals simp [tabulate, Logged.outcome_bind, parsed, bind_eq_error]
  | ok rows =>
      rw [← values_of_parsePaths parsed]
      simp [tabulate, parsed, fromRows_of_parsePaths parsed, bind_eq_error,
        Table.ensureUnique_eq_error]

/-- A query that does not expand ends the search. -/
theorem outcome_find_of_error {fault : Failure}
    (failed : query.expand finder.template = .error fault) :
    (finder.find query options).outcome = .error fault := by
  rw [← Logged.outcome_ofExcept (query.expand finder.template)] at failed
  exact Logged.outcome_bind_eq_error.mpr (.inl failed)

/-- Once the paths are collected, only their number and what they hold decides. -/
theorem outcome_find_of_collect {patterns paths : List String}
    (expanded : query.expand finder.template = .ok patterns)
    (collected : (finder.collect patterns).outcome = .ok paths) :
    (finder.find query options).outcome =
      if paths.isEmpty then (finder.nothing options.onEmpty patterns).outcome
      else (finder.tabulate options.onParseError paths).outcome := by
  rw [find, Logged.outcome_bind, Logged.outcome_ofExcept, expanded, ← apply_ite Logged.outcome]
  change (finder.collect patterns >>= _).outcome = _
  rw [Logged.outcome_bind, collected]
  rfl

/-- A search fails on repeated metadata when all its stages succeed and values come twice. -/
theorem find_repeats_iff (impartial : finder.provider.Impartial) :
    (∃ duplicates, (finder.find query options).outcome = .error (.repeatedMetadata duplicates)) ↔
      ∃ patterns paths, query.expand finder.template = .ok patterns ∧
        (finder.collect patterns).outcome = .ok paths ∧
        (∃ rows, (parsePaths finder.template finder.suffix options.onParseError paths).outcome =
          .ok rows) ∧
        ¬ (paths.filterMap finder.template.reading?).Nodup := by
  cases expanded : query.expand finder.template with
  | error fault =>
      rcases Query.of_expand_eq_error expanded with ⟨_, _, _, rfl⟩ | ⟨_, _, rfl⟩
      all_goals simp [find, expanded, bind_eq_error]
  | ok patterns =>
      cases collected : (finder.collect patterns).outcome with
      | error fault =>
          obtain ⟨pattern, _, answered⟩ := of_collect_eq_error collected
          have other : ∀ duplicates, fault ≠ .repeatedMetadata duplicates := by
            intro duplicates same
            exact impartial pattern duplicates (same ▸ answered)
          simp [find, expanded, collected, bind_eq_error, other]
      | ok paths =>
          rw [outcome_find_of_collect expanded collected]
          split
          next none =>
            obtain rfl : paths = [] := by simpa using none
            constructor
            · intro holds
              obtain ⟨duplicates, failed⟩ := holds
              cases of_nothing_eq_error failed
            · simp [collected]
          next some =>
            simp [collected, outcome_tabulate_repeats_iff]

/-- Metadata repeats exactly when the answers to the search patterns hold a path that is parsed
twice. -/
theorem repeatedMetadata_iff_answered_twice (impartial : finder.provider.Impartial) :
    ((∃ duplicates,
        (finder.find query options).outcome = .error (.repeatedMetadata duplicates)) ↔
      ∃ patterns paths rows answers, query.expand finder.template = .ok patterns ∧
        (finder.collect patterns).outcome = .ok paths ∧
        (parsePaths finder.template finder.suffix options.onParseError paths).outcome = .ok rows ∧
        List.Forall₂ (fun pattern answer => (finder.provider pattern).outcome = .ok answer)
          patterns answers ∧
        ∃ path fields, (finder.template.parse path).outcome = .ok fields ∧
          2 ≤ answers.flatten.count path) ∧
    ∀ left right fields, (finder.template.parse left).outcome = .ok fields →
      (finder.template.parse right).outcome = .ok fields → left = right := by
  refine ⟨?_, fun left right fields => Template.eq_of_parse_eq⟩
  rw [find_repeats_iff impartial]
  constructor
  · intro holds
    obtain ⟨patterns, paths, expanded, collected, ⟨rows, parsed⟩, repeats⟩ := holds
    obtain ⟨answers, answered, same⟩ := answers_of_collect collected
    obtain ⟨path, fields, read, twice⟩ := not_nodup_filterMap_reading?_iff.mp repeats
    rw [same.count_eq] at twice
    exact ⟨patterns, paths, rows, answers, expanded, collected, parsed, answered, path, fields, read,
      twice⟩
  · intro holds
    obtain ⟨patterns, paths, rows, answers, expanded, collected, parsed, answered, path, fields, read,
      twice⟩ := holds
    obtain ⟨others, again, same⟩ := answers_of_collect collected
    obtain rfl : answers = others := by
      refine List.right_unique_forall₂' (fun pattern left right first second => ?_) answered again
      exact Except.ok.inj (first.symm.trans second)
    refine ⟨patterns, paths, expanded, collected, ⟨rows, parsed⟩, ?_⟩
    refine not_nodup_filterMap_reading?_iff.mpr ⟨path, fields, read, ?_⟩
    rwa [same.count_eq]

/-- Two candidates ask for the same path, which alone makes the search fail. -/
theorem repeatedMetadata_of_overlapping_candidates :
    ∃ duplicates, (Finder.find
      ⟨⟨"{a}/{b}", [.field "a" none, .literal "/", .field "b" none], by decide +kernel⟩, ".nc",
        Provider.listed ["x/foo", "y/bar"]⟩
      (Entries.ofList [("b", .list ["foo", "f*"])]) {}).outcome =
        .error (.repeatedMetadata duplicates) := by
  refine (repeatedMetadata_iff_answered_twice (Provider.impartial_listed _)).1.mpr
    ⟨["*/foo", "*/f*"], ["x/foo", "x/foo"],
      [⟨"x/foo.nc", ["x", "foo"]⟩, ⟨"x/foo.nc", ["x", "foo"]⟩], [["x/foo"], ["x/foo"]],
      by decide +kernel, by decide +kernel, by decide +kernel, ?_, "x/foo",
      Entries.ofList [("a", "x"), ("b", "foo")], ?_, by decide +kernel⟩
  · exact .cons (by decide +kernel) (.cons (by decide +kernel) .nil)
  · exact Template.outcome_parse_eq_ok.mpr ⟨["x", "foo"], by decide +kernel, rfl⟩

end Finder

end PathCatalog
