import PathCatalog.Proofs.Finding.Duplicates
import PathCatalog.Proofs.Finding.Policies
import PathCatalog.Proofs.Provider.Listed
import PathCatalog.Proofs.Query.Arrangement

namespace PathCatalog

/-- The kind of a failure is its cause, whatever texts it names. -/
def Failure.kind (failure : Failure) : Nat :=
  failure.ctorIdx

/-- Searches end alike: in the same rows in any order, or in failures of one kind. -/
inductive EndsAlike : Except Failure Table → Except Failure Table → Prop where
  | found {columns : List String} {rows others : List Row} (same : rows.Perm others) :
      EndsAlike (.ok ⟨columns, rows⟩) (.ok ⟨columns, others⟩)
  | failed {fault other : Failure} (same : fault.kind = other.kind) :
      EndsAlike (.error fault) (.error other)

namespace Finder

variable {finder : Finder} {policy : OnParseError} {paths others : List String}

theorem endsAlike_nothing (policy : OnEmpty) (patterns others : List String) :
    EndsAlike (finder.nothing policy patterns).outcome (finder.nothing policy others).outcome := by
  cases policy with
  | raise => exact .failed rfl
  | warn => exact .found .rfl
  | allow => exact .found .rfl

/-- Whether metadata repeats does not depend on the order of the rows. -/
theorem endsAlike_ensureUnique {columns : List String} {rows others : List Row}
    (same : rows.Perm others) :
    EndsAlike ((Table.ensureUnique ⟨columns, rows⟩).map fun _ => ⟨columns, rows⟩)
      ((Table.ensureUnique ⟨columns, others⟩).map fun _ => ⟨columns, others⟩) := by
  have values : (rows.map Row.values).Nodup ↔ (others.map Row.values).Nodup :=
    (same.map Row.values).nodup_iff
  cases unique : Table.ensureUnique ⟨columns, rows⟩ with
  | ok _ =>
      have again : Table.ensureUnique ⟨columns, others⟩ = .ok () :=
        Table.ensureUnique_eq_ok.mpr (values.mp (Table.ensureUnique_eq_ok.mp unique))
      rw [again]
      exact .found same
  | error fault =>
      obtain ⟨repeats, rfl⟩ := Table.ensureUnique_eq_error.mp unique
      rw [Table.ensureUnique_eq_error.mpr ⟨mt values.mpr repeats, rfl⟩]
      exact .failed rfl

/-- A path that is not read makes the strict policy fail. -/
def Unread (template : Template) (outcome : Except Failure Table) : Prop :=
  outcome = .error (.engine .tooManyBranches) ∨
    ∃ path, outcome = .error (.unreadablePath path template.pattern)

/-- Some paths are not read because the engine stops on them, others because they do not match. -/
structure Mixed (template : Template) (paths : List String) : Prop where
  stopped : ∃ path ∈ paths, template.Overflows path
  unmatched : ∃ path ∈ paths, (template.captures path).outcome = .ok none

/-- The same paths in another order make the same rows or fail alike, but for paths that are
unreadable for different reasons. -/
theorem endsAlike_tabulate (same : paths.Perm others) :
    EndsAlike (finder.tabulate policy paths).outcome (finder.tabulate policy others).outcome ∨
      policy = .raise ∧ Mixed finder.template paths ∧
        Unread finder.template (finder.tabulate policy paths).outcome ∧
        Unread finder.template (finder.tabulate policy others).outcome := by
  have alike : (∃ rows, (parsePaths finder.template finder.suffix policy paths).outcome = .ok rows) ↔
      ∃ rows, (parsePaths finder.template finder.suffix policy others).outcome = .ok rows := by
    simp only [exists_parsePaths_iff, same.mem_iff]
  cases parsed : (parsePaths finder.template finder.suffix policy paths).outcome with
  | ok rows =>
      obtain ⟨rearranged, again⟩ := alike.mp ⟨rows, parsed⟩
      rw [outcome_tabulate_of_parsed parsed, outcome_tabulate_of_parsed again]
      obtain ⟨_, _, rfl⟩ := outcome_parsePaths_eq_ok.mp parsed
      obtain ⟨_, _, rfl⟩ := outcome_parsePaths_eq_ok.mp again
      exact .inl (endsAlike_ensureUnique (same.filterMap _))
  | error fault =>
      cases again : (parsePaths finder.template finder.suffix policy others).outcome with
      | ok rows =>
          obtain ⟨_, impossible⟩ := alike.mpr ⟨rows, again⟩
          cases parsed.symm.trans impossible
      | error other =>
          rw [tabulate, Logged.outcome_bind_eq_error.mpr (.inl parsed), tabulate,
            Logged.outcome_bind_eq_error.mpr (.inl again)]
          obtain ⟨path, member, first⟩ := of_parsePaths_eq_error parsed
          obtain ⟨twin, twinMember, second⟩ := of_parsePaths_eq_error again
          have inside := same.mem_iff.mpr twinMember
          rcases first with ⟨full, rfl⟩ | ⟨⟨strict, settled, nothing⟩, rfl⟩ <;>
            rcases second with ⟨twinFull, rfl⟩ | ⟨⟨too, twinSettled, twinNothing⟩, rfl⟩
          · exact .inl (.failed rfl)
          · have unmatched := Template.outcome_captures twinSettled
            rw [twinNothing] at unmatched
            exact .inr ⟨too, ⟨⟨path, member, full⟩, twin, inside, unmatched⟩, .inl rfl,
              .inr ⟨twin, rfl⟩⟩
          · have unmatched := Template.outcome_captures settled
            rw [nothing] at unmatched
            exact .inr ⟨strict, ⟨⟨twin, inside, twinFull⟩, path, member, unmatched⟩,
              .inr ⟨path, rfl⟩, .inl rfl⟩
          · exact .inl (.failed rfl)

variable {query other : Query} {options : FindOptions}

/-- Patterns in another order are answered by the same paths in another order. -/
theorem collect_perm {patterns searches : List String} (same : patterns.Perm searches)
    (collected : (finder.collect patterns).outcome = .ok paths)
    (again : (finder.collect searches).outcome = .ok others) : paths.Perm others := by
  obtain ⟨answers, answered, arranged⟩ := answers_of_collect collected
  obtain ⟨found, answeredAgain, arrangedAgain⟩ := answers_of_collect again
  have unique : Relator.RightUnique fun pattern answer =>
      (finder.provider pattern).outcome = .ok answer :=
    fun _ _ _ first second => Except.ok.inj (first.symm.trans second)
  have paired : answers.Perm found := List.rel_perm_imp unique answered answeredAgain same
  exact arranged.trans (paired.flatten.trans arrangedAgain.symm)

/-- A query that is not expanded fails at once, for a reason that its order does not decide. -/
theorem endsAlike_of_not_expanded (same : query.Permutes other)
    (failed : ¬ ∃ patterns, query.expand finder.template = .ok patterns) :
    EndsAlike (finder.find query options).outcome (finder.find other options).outcome := by
  have known : (∀ name ∈ query.names, name ∈ finder.template.fields) ↔
      ∀ name ∈ other.names, name ∈ finder.template.fields :=
    forall_congr' fun name => imp_congr_left same.names.mem_iff
  have failedAgain : ¬ ∃ patterns, other.expand finder.template = .ok patterns := by
    rwa [Query.exists_expand_iff, ← known, ← same.listable_eq, ← Query.exists_expand_iff]
  cases expanded : query.expand finder.template with
  | ok patterns => exact absurd ⟨patterns, expanded⟩ failed
  | error fault =>
      cases again : other.expand finder.template with
      | ok patterns => exact absurd ⟨patterns, again⟩ failedAgain
      | error reason =>
          rw [outcome_find_of_error expanded, outcome_find_of_error again]
          rcases Query.of_expand_eq_error expanded with ⟨name, named, unknown, rfl⟩ | ⟨all, _, rfl⟩ <;>
            rcases Query.of_expand_eq_error again with ⟨twin, twinNamed, strange, rfl⟩ | ⟨every, _, rfl⟩
          · exact .failed rfl
          · exact absurd (known.mpr every name named) unknown
          · exact absurd (known.mp all twin twinNamed) strange
          · exact .failed rfl

/-- The order of a query decides on the order of the rows only, unless the strict policy meets
unreadable paths of two kinds. -/
theorem endsAlike_of_permutes
    (unfailing : ∀ pattern, ∃ answer, (finder.provider pattern).outcome = .ok answer)
    (same : query.Permutes other) :
    EndsAlike (finder.find query options).outcome (finder.find other options).outcome ∨
      options.onParseError = .raise ∧
        (∃ patterns paths, query.expand finder.template = .ok patterns ∧
          (finder.collect patterns).outcome = .ok paths ∧ Mixed finder.template paths) ∧
        Unread finder.template (finder.find query options).outcome ∧
        Unread finder.template (finder.find other options).outcome := by
  by_cases expands : ∃ patterns, query.expand finder.template = .ok patterns
  · obtain ⟨known, fits⟩ := Query.exists_expand_iff.mp expands
    have again : (∀ name ∈ other.names, name ∈ finder.template.fields) ∧ other.listable = true :=
      ⟨fun name named => known name (same.names.mem_iff.mpr named), same.listable_eq ▸ fits⟩
    obtain ⟨patterns, expanded⟩ := expands
    obtain ⟨others, expandedAgain⟩ := Query.exists_expand_iff.mpr again
    obtain ⟨paths, collected⟩ := exists_collect unfailing patterns
    obtain ⟨rest, collectedAgain⟩ := exists_collect unfailing others
    have paired := collect_perm (same.expand_perm expanded expandedAgain) collected collectedAgain
    rw [outcome_find_of_collect expanded collected,
      outcome_find_of_collect expandedAgain collectedAgain, paired.isEmpty_eq]
    split
    · exact .inl (endsAlike_nothing options.onEmpty patterns others)
    · refine (endsAlike_tabulate paired).imp_right fun unlike => ?_
      obtain ⟨strict, mixed, first, second⟩ := unlike
      exact ⟨strict, ⟨patterns, paths, expanded, collected, mixed⟩, first, second⟩
  · exact .inl (endsAlike_of_not_expanded same expands)

/-- Two fields and all their candidates in another order find the same two rows in another order. -/
theorem endsAlike_of_permutes_two_fields :
    let finder : Finder := ⟨⟨"{site}/{run}", [.field "site" none, .literal "/", .field "run" none],
      by decide +kernel⟩, "", Provider.listed ["x/1", "y/2", "z/1"]⟩
    let query : Query := Entries.ofList [("site", .list ["x", "y"]), ("run", .list ["1", "2"])]
    let other : Query := Entries.ofList [("run", .list ["2", "1"]), ("site", .list ["y", "x"])]
    query.Permutes other ∧
      (finder.find query {}).outcome =
        .ok ⟨["site", "run"], [⟨"x/1", ["x", "1"]⟩, ⟨"y/2", ["y", "2"]⟩]⟩ ∧
      EndsAlike (finder.find query {}).outcome (finder.find other {}).outcome := by
  intro finder query other
  have found : (finder.find query {}).outcome =
      .ok ⟨["site", "run"], [⟨"x/1", ["x", "1"]⟩, ⟨"y/2", ["y", "2"]⟩]⟩ := by decide +kernel
  have unfailing (pattern : String) :
      ∃ answer, (finder.provider pattern).outcome = .ok answer := Provider.exists_listed _ pattern
  have same : query.Permutes other := by decide +kernel
  refine ⟨same, found, (endsAlike_of_permutes unfailing same).resolve_right fun unlike => ?_⟩
  obtain ⟨_, _, unread, _⟩ := unlike
  rw [found] at unread
  rcases unread with impossible | ⟨_, impossible⟩ <;> cases impossible

/-- Digits after a first character, and the same digits again. -/
def signedTwice : Template :=
  ⟨"{v:1}/{a:d}_{a}", [.field "v" (some ⟨"1", some 1, .any⟩), .literal "/",
    .field "a" (some ⟨"d", none, .digits⟩), .literal "_", .field "a" none], by decide +kernel⟩

theorem overflows_signedTwice {text : String}
    (long : Plan.branchLimit < (text.toList.takeWhile CharClass.digits.contains).length) :
    signedTwice.Overflows ("y/" ++ text) := by
  have parts : (Plan.divide (Plan.demands signedTwice.segments)).1 = [.capture ⟨some 1, .any⟩,
      .text ['/'], .capture ⟨none, .digits⟩, .text ['_'], .recall 1] := by
    decide +kernel
  have front : ("y/" ++ text).toList = 'y' :: '/' :: text.toList := by
    rw [String.toList_append]
    rfl
  rw [Template.Overflows, Plan.attempt_eq_search, parts, front, Plan.search,
    if_pos (by simp [Plan.standsFirst, CharClass.contains]), Plan.search, if_pos (by simp)]
  exact Plan.search_of_long_run (by decide) long

/-- Which path is first decides on the failure when the engine stops on one and not on the other. -/
theorem endsAlike_fails_on_long_digits :
    ¬ ∀ (finder : Finder) (query other : Query) (options : FindOptions),
      (∀ pattern, ∃ answer, (finder.provider pattern).outcome = .ok answer) →
      query.Permutes other →
      EndsAlike (finder.find query options).outcome (finder.find other options).outcome := by
  intro always
  obtain ⟨text, long⟩ : ∃ text : String,
      Plan.branchLimit < (text.toList.takeWhile CharClass.digits.contains).length :=
    ⟨Template.longDigits "_1", Template.lt_length_longDigits "_1"⟩
  let reply (pattern : String) : String := if pattern = "x/*_*" then "x/1_2" else "y/" ++ text
  let finder : Finder := ⟨signedTwice, "", fun pattern => .done [reply pattern]⟩
  let query : Query := Entries.ofList [("v", .list ["x", "y"])]
  let other : Query := Entries.ofList [("v", .list ["y", "x"])]
  have alike := always finder query other {} (fun pattern => ⟨[reply pattern], rfl⟩)
    (by decide +kernel)
  have expanded : query.expand signedTwice = .ok ["x/*_*", "y/*_*"] := by decide +kernel
  have again : other.expand signedTwice = .ok ["y/*_*", "x/*_*"] := by decide +kernel
  have collected : (finder.collect ["x/*_*", "y/*_*"]).outcome = .ok ["x/1_2", "y/" ++ text] :=
    collect_of_single signedTwice "" reply _
  have collectedAgain : (finder.collect ["y/*_*", "x/*_*"]).outcome =
      .ok ["y/" ++ text, "x/1_2"] :=
    collect_of_single signedTwice "" reply _
  have unread : (finder.tabulate .raise ["x/1_2", "y/" ++ text]).outcome =
      .error (.unreadablePath "x/1_2" "{v:1}/{a:d}_{a}") := by
    have first : ¬ signedTwice.Reads "x/1_2" := by decide +kernel
    have settled : ¬ signedTwice.Overflows "x/1_2" := by decide +kernel
    have failed := @outcome_parsePaths_of_first signedTwice "" "x/1_2" []
      ["y/" ++ text] (List.forall_mem_nil _) first
    rw [if_neg settled] at failed
    exact Logged.outcome_bind_eq_error.mpr (.inl failed)
  have stopped : (finder.tabulate .raise ["y/" ++ text, "x/1_2"]).outcome =
      .error (.engine .tooManyBranches) := by
    have failed := @outcome_parsePaths_of_overflows signedTwice "" _ .raise []
      ["x/1_2"] (List.forall_mem_nil _) (fun _ => List.forall_mem_nil _) (overflows_signedTwice long)
    exact Logged.outcome_bind_eq_error.mpr (.inl failed)
  rw [@outcome_find_of_collect finder query {} _ _ expanded collected,
    @outcome_find_of_collect finder other {} _ _ again collectedAgain] at alike
  change EndsAlike (finder.tabulate .raise ["x/1_2", "y/" ++ text]).outcome
    (finder.tabulate .raise ["y/" ++ text, "x/1_2"]).outcome at alike
  rw [unread, stopped] at alike
  cases alike with
  | failed same => exact absurd same (by decide)

end Finder

end PathCatalog
