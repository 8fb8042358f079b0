import PathCatalog.CommandLine.Run
import PathCatalog.Proofs.Outcome

namespace PathCatalog

namespace Config

variable {config : Config}

theorem validate_eq_ok_iff : config.validate = .ok () ↔ config.Valid := by
  rw [validate]
  by_cases empty : config.pathPattern = "" ∧ config.filePattern = ""
  · rw [if_pos (by simpa using empty)]
    exact iff_of_false nofun fun valid => valid.patterns.elim (· empty.1) (· empty.2)
  · rw [if_neg (by simpa using empty)]
    have filled := Decidable.not_and_iff_not_or_not.mp empty
    cases given : config.priority with
    | none => exact iff_of_true rfl ⟨filled, by simp [given]⟩
    | some priority =>
        dsimp only
        by_cases ordered : priority.order = []
        · rw [if_pos (List.isEmpty_iff.mpr ordered)]
          exact iff_of_false nofun fun valid => valid.order priority given ordered
        · rw [if_neg (mt List.isEmpty_iff.mp ordered)]
          refine iff_of_true rfl ⟨filled, fun other member => ?_⟩
          rw [given, Option.mem_some_iff] at member
          exact member ▸ ordered

/-- Whatever document it is read from, a configuration is validated before it is handed over. -/
theorem valid_of_ofContents {contents : Document.Contents}
    (read : (ofContents contents).outcome = .ok config) : config.Valid := by
  obtain ⟨entries, _, read⟩ := Logged.outcome_bind_eq_ok.mp read
  obtain ⟨draft, _, read⟩ := Logged.outcome_bind_eq_ok.mp read
  obtain ⟨pathPattern, _, read⟩ := Logged.outcome_bind_eq_ok.mp read
  obtain ⟨filePattern, _, read⟩ := Logged.outcome_bind_eq_ok.mp read
  dsimp only at read
  split at read
  next =>
    obtain ⟨_, checked, read⟩ := Logged.outcome_bind_eq_ok.mp read
    cases read
    exact validate_eq_ok_iff.mp checked
  next => cases read

theorem valid_of_ofFile {host : Host} {name : String}
    (read : (ofFile host name).outcome = .ok config) : config.Valid := by
  rw [ofFile] at read
  split at read
  next => cases read
  next =>
    obtain ⟨_, _, read⟩ := Logged.outcome_bind_eq_ok.mp read
    exact valid_of_ofContents (Logged.outcome_mapFault_eq_ok.mp read)

end Config

namespace CommandLine.Selection

variable {selection : Selection} {host : Host} {base config : Config}

/-- Without a file both patterns are given, and that is all there is to the configuration. -/
theorem valid_or_given_of_base (found : (selection.base host).outcome = .ok base) :
    base.Valid ∨ base.priority = none ∧ selection.pathPattern = some base.pathPattern ∧
      selection.filePattern = some base.filePattern := by
  rw [Selection.base] at found
  split at found
  next => exact .inl (Config.valid_of_ofFile (Logged.outcome_mapFault_eq_ok.mp found))
  next first second =>
    cases found
    exact .inr ⟨rfl, first, second⟩
  next => cases found

/-- The patterns that are given replace those of the base, and nothing else changes. -/
theorem resolve_eq_ok_iff : (selection.resolve host).outcome = .ok config ↔
    ∃ base, (selection.base host).outcome = .ok base ∧
      { base with
        pathPattern := selection.pathPattern.getD base.pathPattern
        filePattern := selection.filePattern.getD base.filePattern } = config := by
  rw [Selection.resolve, Logged.outcome_bind_eq_ok]
  simp only [Logged.outcome_pure, Except.ok.injEq]

theorem ordered_of_base (found : (selection.base host).outcome = .ok base) :
    ∀ priority ∈ base.priority, priority.order ≠ [] := by
  rcases valid_or_given_of_base found with valid | ⟨absent, _⟩
  · exact valid.order
  · simp [absent]

/-- Patterns are left empty together only by a pattern that is given empty. -/
theorem given_empty_of_base (found : (selection.base host).outcome = .ok base)
    (first : selection.pathPattern.getD base.pathPattern = "")
    (second : selection.filePattern.getD base.filePattern = "") :
    selection.pathPattern = some "" ∨ selection.filePattern = some "" := by
  cases path : selection.pathPattern with
  | some pattern =>
      rw [path, Option.getD_some] at first
      exact .inl (congrArg some first)
  | none =>
      cases file : selection.filePattern with
      | some pattern =>
          rw [file, Option.getD_some] at second
          exact .inr (congrArg some second)
      | none =>
          rw [path, Option.getD_none] at first
          rw [file, Option.getD_none] at second
          rcases valid_or_given_of_base found with valid | ⟨_, given, _⟩
          · exact absurd first (valid.patterns.resolve_right (not_not_intro second))
          · rw [path] at given
            cases given

/-- A resolved configuration passes the validation unless a pattern that is given empty has left
both patterns empty. -/
theorem resolve_valid_iff (resolved : (selection.resolve host).outcome = .ok config) :
    (∀ priority ∈ config.priority, priority.order ≠ []) ∧
      (config.validate = .ok () ↔
        ¬(selection.pathPattern = some "" ∧ config.filePattern = "" ∨
          selection.filePattern = some "" ∧ config.pathPattern = "")) := by
  obtain ⟨base, found, rfl⟩ := resolve_eq_ok_iff.mp resolved
  have ordered := ordered_of_base found
  refine ⟨ordered, Config.validate_eq_ok_iff.trans ⟨fun valid emptied => ?_, fun kept => ?_⟩⟩
  · rcases emptied with ⟨path, file⟩ | ⟨file, path⟩
    · have replaced : selection.pathPattern.getD base.pathPattern = "" := by
        rw [path, Option.getD_some]
      exact valid.patterns.elim (· replaced) (· file)
    · have replaced : selection.filePattern.getD base.filePattern = "" := by
        rw [file, Option.getD_some]
      exact valid.patterns.elim (· path) (· replaced)
  · refine ⟨?_, ordered⟩
    by_contra both
    obtain ⟨first, second⟩ := not_or.mp both
    rw [not_ne_iff] at first second
    rcases given_empty_of_base found first second with path | file
    · exact kept (.inl ⟨path, second⟩)
    · exact kept (.inr ⟨file, first⟩)

/-- A file whose directories are described alone is left without a pattern by an empty one. -/
theorem resolve_valid_overridden_file :
    let host : Host :=
      ⟨⟨[(["a.yaml"], .file "path_pattern: d\nfile_pattern: ''\n")]⟩, [], "."⟩
    let selection : Selection := { config := some "a.yaml", pathPattern := some "" }
    let config : Config := ⟨"", "", .raise, .raise, none, none⟩
    (selection.resolve host).outcome = .ok config ∧
      (∀ priority ∈ config.priority, priority.order ≠ []) ∧
      (config.validate = .ok () ↔
        ¬(selection.pathPattern = some "" ∧ config.filePattern = "" ∨
          selection.filePattern = some "" ∧ config.pathPattern = "")) := by
  intro host selection config
  have resolved : (selection.resolve host).outcome = .ok config := by decide +kernel
  exact ⟨resolved, resolve_valid_iff resolved⟩

/-- Two patterns that are given empty are taken as they are, though a file with them is refused. -/
theorem resolve_keeps_empty_patterns :
    (∃ selection : Selection,
      (readRequest ["keys", "-p", "", "-f", ""]).outcome = .ok (.keys selection) ∧
      ∃ config, (selection.resolve ⟨.empty, [], "."⟩).outcome = .ok config ∧ ¬config.Valid) ∧
    (Config.ofText "path_pattern: ''\nfile_pattern: ''\n").outcome =
      .error (.invalidConfig .emptyPatterns) := by
  refine ⟨⟨⟨some "", some "", none⟩, by decide +kernel,
    ⟨"", "", .raise, .raise, none, none⟩, by decide +kernel, fun valid => ?_⟩, by decide +kernel⟩
  exact valid.patterns.elim (· rfl) (· rfl)

end CommandLine.Selection

end PathCatalog
