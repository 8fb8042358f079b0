import PathCatalog.Finder
import PathCatalog.Proofs.Outcome
import PathCatalog.Proofs.Provider.Listed
import PathCatalog.Proofs.Text.Natural

namespace PathCatalog

/-- Outcomes that differ in their order only have one natural arrangement. -/
theorem Rearranged.naturalSort_eq {first second : Except Failure (List String)}
    (same : Rearranged first second) :
    first.map Text.naturalSort = second.map Text.naturalSort := by
  cases same with
  | failed fault => rfl
  | answered same => exact congrArg Except.ok (Text.naturalSort_eq_of_perm same)

namespace Finder

/-- What the provider leaves when a query's search patterns are put to it one after the other. -/
def asked (finder : Finder) (query : Query) : Logged Failure (List (List String)) := do
  let patterns ← Logged.ofExcept (query.expand finder.template)
  Logged.each finder.provider patterns

/-- What a search does once the paths are collected. -/
def conclude (finder : Finder) (options : FindOptions) (patterns paths : List String) :
    Logged Failure Table :=
  if paths.isEmpty then finder.nothing options.onEmpty patterns
  else finder.tabulate options.onParseError paths

/-- What the finder itself does about a query, apart from putting its patterns to the provider. -/
def settled (finder : Finder) (query : Query) (options : FindOptions) : Logged Failure Table := do
  let patterns ← Logged.ofExcept (query.expand finder.template)
  let paths ← Logged.ofExcept (finder.collect patterns).outcome
  finder.conclude options patterns paths

section Stages

variable (finder : Finder)

theorem outcome_collectOne (pattern : String) :
    (finder.collectOne pattern).outcome =
      (finder.provider pattern).outcome.map Text.naturalSort := by
  unfold collectOne
  rw [Logged.outcome_bind]
  cases (finder.provider pattern).outcome <;> rfl

theorem warnings_collectOne (pattern : String) :
    (finder.collectOne pattern).warnings = (finder.provider pattern).warnings := by
  unfold collectOne
  rw [Logged.warnings_bind]
  cases (finder.provider pattern).outcome <;> simp

/-- Collecting adds no warning to those of the provider. -/
theorem warnings_collect (patterns : List String) :
    (finder.collect patterns).warnings = (Logged.each finder.provider patterns).warnings := by
  have reached : ∀ pattern, (finder.collectOne pattern).outcome.isOk =
      (finder.provider pattern).outcome.isOk := by
    intro pattern
    rw [outcome_collectOne]
    cases (finder.provider pattern).outcome <;> rfl
  unfold collect
  rw [Logged.warnings_bind_pure]
  exact Logged.warnings_each_congr reached finder.warnings_collectOne patterns

variable (query : Query) (options : FindOptions)

theorem outcome_find :
    (finder.find query options).outcome = (finder.settled query options).outcome := by
  unfold find settled
  cases query.expand finder.template with
  | error fault => rfl
  | ok patterns =>
      simp only [Logged.ofExcept_ok_bind, Logged.outcome_bind, Logged.outcome_note,
        Logged.outcome_ofExcept]
      rfl

/-- The warnings of a search are those of the provider, followed by those of the finder itself. -/
theorem warnings_find : (finder.find query options).warnings =
    (finder.asked query).warnings ++ (finder.settled query options).warnings := by
  unfold find settled asked
  cases query.expand finder.template with
  | error fault => rfl
  | ok patterns =>
      simp only [Logged.ofExcept_ok_bind, Logged.warnings_bind, Logged.outcome_note,
        Logged.warnings_debug, Logged.outcome_ofExcept, Logged.warnings_ofExcept,
        warnings_collect]
      rfl

end Stages

section Rearranged

variable {template : Template} {suffix : String} {provider other : Provider}

/-- One arrangement is collected of answers that differ in their order only. -/
theorem outcome_collect_congr (same : provider.Rearranges other) (patterns : List String) :
    (collect ⟨template, suffix, provider⟩ patterns).outcome =
      (collect ⟨template, suffix, other⟩ patterns).outcome := by
  have one : ∀ pattern, (collectOne ⟨template, suffix, provider⟩ pattern).outcome =
      (collectOne ⟨template, suffix, other⟩ pattern).outcome := by
    intro pattern
    rw [outcome_collectOne, outcome_collectOne]
    exact (same pattern).naturalSort_eq
  unfold collect
  rw [Logged.outcome_bind, Logged.outcome_bind, Logged.outcome_each_congr one]

theorem settled_congr (same : provider.Rearranges other) (query : Query) (options : FindOptions) :
    settled ⟨template, suffix, provider⟩ query options =
      settled ⟨template, suffix, other⟩ query options := by
  unfold settled
  simp only [outcome_collect_congr same]
  rfl

theorem warnings_asked_congr (same : provider.Rearranges other)
    (warned : ∀ pattern, (provider pattern).warnings = (other pattern).warnings) (query : Query) :
    (asked ⟨template, suffix, provider⟩ query).warnings =
      (asked ⟨template, suffix, other⟩ query).warnings := by
  unfold asked
  dsimp only
  cases query.expand template with
  | error fault => rfl
  | ok patterns =>
      rw [Logged.ofExcept_ok_bind, Logged.ofExcept_ok_bind]
      exact Logged.warnings_each_congr (fun pattern => (same pattern).isOk_eq) warned patterns

/-- A list in another order leads to the same run, down to the last event. -/
theorem find_listed_of_perm {paths others : List String} (same : paths.Perm others) (query : Query)
    (options : FindOptions) :
    find ⟨template, suffix, Provider.listed paths⟩ query options =
      find ⟨template, suffix, Provider.listed others⟩ query options := by
  have one : collectOne ⟨template, suffix, Provider.listed paths⟩ =
      collectOne ⟨template, suffix, Provider.listed others⟩ := by
    funext pattern
    unfold collectOne
    dsimp only
    unfold Provider.listed
    split
    · rfl
    · have answer := (Provider.candidates_perm same pattern).filter (Glob.parse pattern).accepts
      simp only [Logged.done_bind, Text.naturalSort_eq_of_perm answer]
  unfold find collect
  rw [one]
  rfl

/-- A search ends in the same table or failure, with the same warnings, whatever the order of the
provider's answers. -/
theorem find_of_rearranges (same : provider.Rearranges other) (query : Query)
    (options : FindOptions) :
    (find ⟨template, suffix, provider⟩ query options).outcome =
        (find ⟨template, suffix, other⟩ query options).outcome ∧
      (∃ own,
        (find ⟨template, suffix, provider⟩ query options).warnings =
          (asked ⟨template, suffix, provider⟩ query).warnings ++ own ∧
        (find ⟨template, suffix, other⟩ query options).warnings =
          (asked ⟨template, suffix, other⟩ query).warnings ++ own) ∧
      ((∀ pattern, (provider pattern).warnings = (other pattern).warnings) →
        (find ⟨template, suffix, provider⟩ query options).warnings =
          (find ⟨template, suffix, other⟩ query options).warnings) ∧
      ∀ paths others : List String, paths.Perm others →
        find ⟨template, suffix, Provider.listed paths⟩ query options =
          find ⟨template, suffix, Provider.listed others⟩ query options := by
  have one : settled ⟨template, suffix, provider⟩ query options =
      settled ⟨template, suffix, other⟩ query options := settled_congr same query options
  constructor
  · rw [outcome_find, outcome_find, one]
  rw [warnings_find, warnings_find, one]
  refine ⟨⟨_, rfl, rfl⟩, fun warned => ?_, fun paths others same => ?_⟩
  · rw [warnings_asked_congr same warned query]
  · exact find_listed_of_perm same query options

/-- Two orders of a list with leading zeros and a path that the template does not read. -/
theorem find_of_rearranges_numbered :
    let template : Template := ⟨"{a}_{a}/{b}", [.field "a" none, .literal "_", .field "a" none,
      .literal "/", .field "b" none], by decide +kernel⟩
    let first : Finder := ⟨template, ".nc",
      Provider.listed ["x_y/f", "x10_x10/f", "x2_x2/f", "x02_x02/f"]⟩
    let second : Finder := ⟨template, ".nc",
      Provider.listed ["x2_x2/f", "x_y/f", "x02_x02/f", "x10_x10/f"]⟩
    (first.find Entries.empty { onParseError := .warn }).outcome =
        (second.find Entries.empty { onParseError := .warn }).outcome ∧
      (first.find Entries.empty { onParseError := .warn }).warnings =
        (second.find Entries.empty { onParseError := .warn }).warnings := by
  intro template first second
  have same : first.provider.Rearranges second.provider :=
    Provider.rearranges_listed (by decide +kernel)
  have warned (pattern : String) :
      (first.provider pattern).warnings = (second.provider pattern).warnings :=
    (Provider.warnings_listed _ pattern).trans (Provider.warnings_listed _ pattern).symm
  obtain ⟨ended, _, warns, _⟩ :=
    @find_of_rearranges template ".nc" _ _ same Entries.empty { onParseError := .warn }
  exact ⟨ended, warns warned⟩

end Rearranged

end Finder

end PathCatalog
