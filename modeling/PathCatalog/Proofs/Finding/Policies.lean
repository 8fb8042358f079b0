import PathCatalog.Proofs.Finding.Pipeline
import PathCatalog.Proofs.Finding.Rearrangement

namespace PathCatalog

/-- A path is read when the template matches it. -/
def Template.Reads (template : Template) (path : String) : Prop :=
  (template.isMatch path).outcome = .ok true

theorem Template.reads_iff {template : Template} {path : String} :
    template.Reads path ↔ (template.reading? path).isSome = true :=
  outcome_isMatch_eq_ok_true

instance (template : Template) (path : String) : Decidable (template.Reads path) :=
  decidable_of_iff _ Template.reads_iff.symm

/-- What is said of a path that is not read. -/
def Template.complaint (template : Template) (path : String) : String :=
  (Failure.unreadablePath path template.pattern).message

section Parsing

variable {template : Template} {suffix path : String} {paths : List String}

theorem isSome_rowOf? (template : Template) (suffix path : String) :
    (rowOf? template suffix path).isSome = decide (template.Reads path) := by
  rw [rowOf?, Option.isSome_map, Bool.eq_iff_iff, decide_eq_true_eq, Template.reads_iff]

/-- Each path that is read has one row, which carries the values read from it. -/
theorem forall₂_rowOf? (template : Template) (suffix : String) (paths : List String) :
    List.Forall₂ (fun path row => (template.parseValues path).outcome = .ok row.values ∧
        row.path = path ++ suffix)
      (paths.filter fun path => template.Reads path) (paths.filterMap (rowOf? template suffix)) := by
  induction paths with
  | nil => exact .nil
  | cons path rest ih =>
      rw [List.filter_cons, ← isSome_rowOf? template suffix]
      cases made : rowOf? template suffix path with
      | none => simpa [List.filterMap_cons_none made] using ih
      | some row =>
          obtain ⟨read, named⟩ := rowOf?_eq_some.mp made
          rw [List.filterMap_cons_some made]
          exact .cons ⟨Template.outcome_parseValues_eq_ok.mpr read, named⟩ ih

theorem Template.not_overflows_of_reads (read : template.Reads path) : ¬ template.Overflows path :=
  Template.not_overflows_of_isSome (Template.reads_iff.mp read)

theorem Template.reading?_of_not_reads (unread : ¬ template.Reads path) :
    template.reading? path = none := by
  simpa [Template.reads_iff] using unread

/-- Tolerant policies parse all paths on which the engine does not stop. -/
theorem outcome_parsePaths_of_tolerant (settled : ∀ path ∈ paths, ¬ template.Overflows path)
    {policy : OnParseError} (tolerant : policy ≠ .raise) :
    (parsePaths template suffix policy paths).outcome =
      .ok (paths.filterMap (rowOf? template suffix)) :=
  outcome_parsePaths_eq_ok.mpr ⟨settled, fun strict => absurd strict tolerant, rfl⟩

/-- What becomes of the paths does not depend on which tolerant policy it is. -/
theorem outcome_parsePaths_congr {policy other : OnParseError} (tolerant : policy ≠ .raise)
    (too : other ≠ .raise) :
    (parsePaths template suffix policy paths).outcome =
      (parsePaths template suffix other paths).outcome := by
  have same (path : String) : (parsePath template suffix policy path).outcome =
      (parsePath template suffix other path).outcome := by
    by_cases full : template.Overflows path
    · rw [outcome_parsePath_of_overflows full, outcome_parsePath_of_overflows full]
    · rw [parsePath, parsePath, Logged.outcome_bind, Logged.outcome_bind,
        Template.outcome_captures full]
      cases template.reading? path with
      | some values => rfl
      | none => cases policy <;> cases other <;> first | rfl | contradiction
  rw [parsePaths, parsePaths, Logged.outcome_bind, Logged.outcome_bind,
    Logged.outcome_each_congr same]

/-- Where every path is read the strict policy does the same. -/
theorem outcome_parsePaths_of_reads {policy : OnParseError}
    (reads : ∀ path ∈ paths, template.Reads path) :
    (parsePaths template suffix policy paths).outcome =
      .ok (paths.filterMap (rowOf? template suffix)) :=
  outcome_parsePaths_eq_ok.mpr
    ⟨fun path member => Template.not_overflows_of_reads (reads path member),
      fun _ path member => Template.reads_iff.mp (reads path member), rfl⟩

/-- A path that fails ends the parsing when the paths in front of it are parsed. -/
theorem outcome_parsePaths_of_failing {policy : OnParseError} {before after : List String}
    {fault : Failure} (reached : ∀ earlier ∈ before, ¬ template.Overflows earlier)
    (strict : policy = .raise → ∀ earlier ∈ before, template.Reads earlier)
    (failed : (parsePath template suffix policy path).outcome = .error fault) :
    (parsePaths template suffix policy (before ++ path :: after)).outcome = .error fault := by
  refine Logged.outcome_bind_eq_error.mpr (.inl (Logged.outcome_each_eq_error.mpr ?_))
  refine ⟨before, path, after, rfl, fun earlier member => ?_, failed⟩
  exact ⟨_, outcome_parsePath_eq_ok.mpr ⟨reached earlier member,
    fun raised => Template.reads_iff.mp (strict raised earlier member), rfl⟩⟩

/-- All policies fail on the first path on which the engine stops, if they get there. -/
theorem outcome_parsePaths_of_overflows {policy : OnParseError} {before after : List String}
    (reached : ∀ earlier ∈ before, ¬ template.Overflows earlier)
    (strict : policy = .raise → ∀ earlier ∈ before, template.Reads earlier)
    (full : template.Overflows path) :
    (parsePaths template suffix policy (before ++ path :: after)).outcome =
      .error (.engine .tooManyBranches) :=
  outcome_parsePaths_of_failing reached strict (outcome_parsePath_of_overflows full)

theorem outcome_parsePath_of_not_reads (unread : ¬ template.Reads path) :
    (parsePath template suffix .raise path).outcome =
      .error (if template.Overflows path then .engine .tooManyBranches
        else .unreadablePath path template.pattern) := by
  by_cases full : template.Overflows path
  · rw [if_pos full, outcome_parsePath_of_overflows full]
  · rw [if_neg full, parsePath, Logged.outcome_bind, Template.outcome_captures full,
      Template.reading?_of_not_reads unread]
    rfl

/-- The strict policy fails on the first path that is not read. -/
theorem outcome_parsePaths_of_first {before after : List String}
    (reads : ∀ earlier ∈ before, template.Reads earlier) (unread : ¬ template.Reads path) :
    (parsePaths template suffix .raise (before ++ path :: after)).outcome =
      .error (if template.Overflows path then .engine .tooManyBranches
        else .unreadablePath path template.pattern) :=
  outcome_parsePaths_of_failing
    (fun earlier member => Template.not_overflows_of_reads (reads earlier member)) (fun _ => reads)
    (outcome_parsePath_of_not_reads unread)

theorem warnings_parsePath_of_overflows {policy : OnParseError} (full : template.Overflows path) :
    (parsePath template suffix policy path).warnings = [] := by
  rw [parsePath, Logged.warnings_bind, template.warnings_captures path,
    Template.outcome_captures_of_overflows full]
  rfl

theorem warnings_parsePath (settled : ¬ template.Overflows path) (policy : OnParseError) :
    (parsePath template suffix policy path).warnings =
      if policy = .warn ∧ ¬ template.Reads path then [template.complaint path] else [] := by
  rw [parsePath, Logged.warnings_bind, template.warnings_captures path,
    Template.outcome_captures settled]
  by_cases read : template.Reads path
  · obtain ⟨values, found⟩ := Option.isSome_iff_exists.mp (Template.reads_iff.mp read)
    simp [found, read]
  · have nothing := Template.reading?_of_not_reads read
    cases policy <;> simp [nothing, read, Logged.warnings_bind, Template.complaint]
    rfl

/-- The policy that warns does so once for each path that is not read. -/
theorem warnings_parsePaths_warn (settled : ∀ path ∈ paths, ¬ template.Overflows path) :
    (parsePaths template suffix .warn paths).warnings =
      (paths.filter fun path => ¬ template.Reads path).map template.complaint := by
  have tolerant : OnParseError.warn ≠ .raise := by decide
  obtain ⟨found, parsed, _⟩ := Logged.outcome_bind_eq_ok.mp
    (@outcome_parsePaths_of_tolerant template suffix paths settled _ tolerant)
  rw [parsePaths, Logged.warnings_bind_pure]
  refine Logged.warnings_each_filter parsed fun path member => ?_
  rw [warnings_parsePath (settled path member)]
  simp only [true_and]

/-- Where the engine stops, the warnings end. -/
theorem warnings_parsePaths_of_overflows {before after : List String}
    (reached : ∀ earlier ∈ before, ¬ template.Overflows earlier) (full : template.Overflows path) :
    (parsePaths template suffix .warn (before ++ path :: after)).warnings =
      (parsePaths template suffix .warn before).warnings := by
  have tolerant : OnParseError.warn ≠ .raise := by decide
  obtain ⟨found, parsed, _⟩ := Logged.outcome_bind_eq_ok.mp
    (@outcome_parsePaths_of_tolerant template suffix before reached _ tolerant)
  rw [parsePaths, parsePaths, Logged.warnings_bind_pure, Logged.warnings_bind_pure,
    Logged.warnings_each_of_error parsed (outcome_parsePath_of_overflows full),
    warnings_parsePath_of_overflows full, List.append_nil]

theorem warnings_parsePaths_of_ne_warn {policy : OnParseError} (quiet : policy ≠ .warn) :
    (parsePaths template suffix policy paths).warnings = [] := by
  rw [parsePaths, Logged.warnings_bind_pure]
  apply Logged.warnings_each_of_silent
  intro path
  by_cases full : template.Overflows path
  · exact warnings_parsePath_of_overflows full
  · rw [warnings_parsePath full, if_neg fun holds => quiet holds.1]

end Parsing

namespace Finder

variable {finder : Finder} {query : Query} {onEmpty : OnEmpty} {policy : OnParseError}
  {patterns paths : List String}

/-- A table is made without any warning but those of the paths that are not read. -/
theorem warnings_tabulate :
    (finder.tabulate policy paths).warnings =
      (parsePaths finder.template finder.suffix policy paths).warnings := by
  apply Logged.warnings_bind_of_silent
  intro rows
  simp only [Logged.warnings_bind, Logged.warnings_debug, Logged.outcome_note,
    Logged.warnings_ofExcept, Logged.outcome_ofExcept, Logged.warnings_info, List.nil_append]
  cases Table.fromRows finder.template.fields rows with
  | error fault => rfl
  | ok table => cases unique : table.ensureUnique <;> simp [unique]

/-- Once some path is collected, the policy on empty results does not matter. -/
theorem settled_of_collect (expanded : query.expand finder.template = .ok patterns)
    (collected : (finder.collect patterns).outcome = .ok paths) (found : paths ≠ []) :
    finder.settled query ⟨policy, onEmpty⟩ = finder.tabulate policy paths := by
  rw [settled, expanded, Logged.ofExcept_ok_bind, collected, Logged.ofExcept_ok_bind, conclude,
    if_neg (by simpa using found)]

/-- The outcomes of a table go by those of the paths. -/
theorem outcome_tabulate_congr {other : OnParseError}
    (same : (parsePaths finder.template finder.suffix policy paths).outcome =
      (parsePaths finder.template finder.suffix other paths).outcome) :
    (finder.tabulate policy paths).outcome = (finder.tabulate other paths).outcome := by
  rw [tabulate, tabulate, Logged.outcome_bind, Logged.outcome_bind, same]

/-- Some paths that are not read, each with its complaint. -/
def complaints (finder : Finder) (paths : List String) : List String :=
  (paths.filter fun path => ¬ finder.template.Reads path).map finder.template.complaint

/-- The tolerant policies find the paths that are read, the strict one fails on the first other
path, and all fail where the engine stops. -/
theorem find_under_policies (onEmpty : OnEmpty)
    (expanded : query.expand finder.template = .ok patterns)
    (collected : (finder.collect patterns).outcome = .ok paths) (found : paths ≠ []) :
    let run (policy : OnParseError) := finder.find query ⟨policy, onEmpty⟩
    ((∀ path ∈ paths, ¬ finder.template.Overflows path) →
      (∃ rows, List.Forall₂ (fun path row =>
            (finder.template.parseValues path).outcome = .ok row.values ∧
              row.path = path ++ finder.suffix)
            (paths.filter fun path => finder.template.Reads path) rows ∧
          (run .ignore).outcome = (Table.ensureUnique ⟨finder.template.fields, rows⟩).map fun _ =>
            ⟨finder.template.fields, rows⟩) ∧
        (run .warn).warnings = (finder.asked query).warnings ++ finder.complaints paths) ∧
      (∀ before path after, paths = before ++ path :: after →
        (∀ earlier ∈ before, ¬ finder.template.Overflows earlier) →
        finder.template.Overflows path →
        (run .ignore).outcome = .error (.engine .tooManyBranches) ∧
          (run .warn).warnings = (finder.asked query).warnings ++ finder.complaints before) ∧
      (run .warn).outcome = (run .ignore).outcome ∧
      (∀ policy, policy ≠ .warn → (run policy).warnings = (finder.asked query).warnings) ∧
      ((∀ pattern, (finder.provider pattern).warnings = []) →
        (finder.asked query).warnings = []) ∧
      (∀ before path after, paths = before ++ path :: after →
        (∀ earlier ∈ before, finder.template.Reads earlier) → ¬ finder.template.Reads path →
        (run .raise).outcome = .error (if finder.template.Overflows path then
          .engine .tooManyBranches else .unreadablePath path finder.template.pattern)) ∧
      ((∀ path ∈ paths, finder.template.Reads path) →
        (run .raise).outcome = (run .ignore).outcome) := by
  intro run
  have ended (policy : OnParseError) :
      (run policy).outcome = (finder.tabulate policy paths).outcome := by
    rw [outcome_find, settled_of_collect expanded collected found]
  have warned (policy : OnParseError) : (run policy).warnings = (finder.asked query).warnings ++
      (parsePaths finder.template finder.suffix policy paths).warnings := by
    rw [warnings_find, settled_of_collect expanded collected found, warnings_tabulate]
  simp only [ended, warned]
  have tolerant : OnParseError.ignore ≠ .raise := by decide
  refine ⟨fun settled => ⟨⟨_, forall₂_rowOf? finder.template finder.suffix paths, ?_⟩, ?_⟩, ?_, ?_,
    ?_, ?_, ?_, ?_⟩
  · exact outcome_tabulate_of_parsed (outcome_parsePaths_of_tolerant settled tolerant)
  · rw [warnings_parsePaths_warn settled, complaints]
  · intro before path after cut reached full
    subst cut
    refine ⟨Logged.outcome_bind_eq_error.mpr (.inl ?_), ?_⟩
    · exact outcome_parsePaths_of_overflows reached (fun strict => absurd strict tolerant) full
    · rw [warnings_parsePaths_of_overflows reached full, warnings_parsePaths_warn reached,
        complaints]
  · exact outcome_tabulate_congr (outcome_parsePaths_congr (by decide) tolerant)
  · intro policy quiet
    rw [warnings_parsePaths_of_ne_warn quiet, List.append_nil]
  · intro silent
    rw [asked, expanded, Logged.ofExcept_ok_bind]
    exact Logged.warnings_each_of_silent silent patterns
  · intro before path after cut reads unread
    subst cut
    exact Logged.outcome_bind_eq_error.mpr (.inl (outcome_parsePaths_of_first reads unread))
  · intro reads
    apply outcome_tabulate_congr
    rw [outcome_parsePaths_of_reads reads, outcome_parsePaths_of_reads reads]

/-- Of four collected paths the second and the last contradict themselves. -/
theorem find_under_policies_two_unread :
    let finder : Finder := ⟨⟨"{run}_{run}/{step}", [.field "run" none, .literal "_",
      .field "run" none, .literal "/", .field "step" none], by decide +kernel⟩, ".nc",
      Provider.listed ["r_r/a", "r_s/b", "s_s/c", "s_r/d"]⟩
    let query : Query := Entries.ofList [("step", .list ["a", "b", "c", "d"])]
    let run (policy : OnParseError) := finder.find query ⟨policy, .raise⟩
    (run .warn).outcome = (run .ignore).outcome ∧
      (run .ignore).outcome = .ok ⟨["run", "step"],
        [⟨"r_r/a.nc", ["r", "a"]⟩, ⟨"s_s/c.nc", ["s", "c"]⟩]⟩ ∧
      (run .warn).warnings = ["r_s/b", "s_r/d"].map finder.template.complaint ∧
      (run .ignore).warnings = [] ∧
      (run .raise).outcome = .error (.unreadablePath "r_s/b" "{run}_{run}/{step}") := by
  intro finder query run
  have expanded : query.expand finder.template = .ok ["*_*/a", "*_*/b", "*_*/c", "*_*/d"] := by
    decide +kernel
  have collected : (finder.collect ["*_*/a", "*_*/b", "*_*/c", "*_*/d"]).outcome =
      .ok ["r_r/a", "r_s/b", "s_s/c", "s_r/d"] := by
    decide +kernel
  have reached : ∀ path ∈ ["r_r/a", "r_s/b", "s_s/c", "s_r/d"],
      ¬ finder.template.Overflows path := by decide +kernel
  obtain ⟨settled, _, same, quiet, silent, strict, _⟩ :=
    find_under_policies .raise expanded collected (by decide)
  have provided : (finder.asked query).warnings = [] := silent (Provider.warnings_listed _)
  have warned := (settled reached).2
  rw [provided] at warned quiet
  refine ⟨same, by decide +kernel, ?_, quiet .ignore (by decide), ?_⟩
  · exact warned.trans (by decide +kernel)
  · exact (strict ["r_r/a"] "r_s/b" ["s_s/c", "s_r/d"] rfl (by decide +kernel)
      (by decide +kernel)).trans (by decide +kernel)

/-- The tolerant policies do not find the paths that are read when the engine stops on another. -/
theorem find_of_long_digits :
    ¬ ∀ (finder : Finder) (query : Query) (onEmpty : OnEmpty) (patterns paths : List String),
      query.expand finder.template = .ok patterns →
      (finder.collect patterns).outcome = .ok paths → paths ≠ [] →
      ∃ rows, List.Forall₂ (fun path row =>
            (finder.template.parseValues path).outcome = .ok row.values ∧
              row.path = path ++ finder.suffix)
            (paths.filter fun path => finder.template.Reads path) rows ∧
          (finder.find query ⟨.ignore, onEmpty⟩).outcome =
            (Table.ensureUnique ⟨finder.template.fields, rows⟩).map fun _ =>
              ⟨finder.template.fields, rows⟩ := by
  intro always
  let path := Template.longDigits "_1"
  let finder : Finder := ⟨.twice, "", fun _ => .done [path]⟩
  have full : finder.template.Overflows path := Template.overflows_twice "_1"
  have unread : ¬ finder.template.Reads path := fun read =>
    Template.not_overflows_of_reads read full
  have expanded : Query.expand finder.template Entries.empty = .ok ["*_*"] := by decide +kernel
  have collected : (finder.collect ["*_*"]).outcome = .ok [path] :=
    collect_of_single .twice "" (fun _ => path) ["*_*"]
  have some : [path] ≠ [] := List.cons_ne_nil path []
  have tolerant : OnParseError.ignore ≠ .raise := by decide
  have stopped : (finder.find Entries.empty ⟨.ignore, .raise⟩).outcome =
      .error (.engine .tooManyBranches) := by
    rw [outcome_find, settled_of_collect expanded collected some]
    exact Logged.outcome_bind_eq_error.mpr (.inl (@outcome_parsePaths_of_overflows finder.template
      finder.suffix path .ignore [] [] (List.forall_mem_nil _) (fun strict => absurd strict tolerant)
      full))
  obtain ⟨rows, read, found⟩ := always finder Entries.empty .raise _ _ expanded collected some
  have none : [path].filter (fun path => finder.template.Reads path) = [] := by
    simp [unread]
  rw [none, List.forall₂_nil_left_iff] at read
  subst read
  have unique : Table.ensureUnique ⟨finder.template.fields, []⟩ = .ok () :=
    Table.ensureUnique_eq_ok.mpr List.nodup_nil
  rw [stopped, unique] at found
  cases found

end Finder

end PathCatalog
