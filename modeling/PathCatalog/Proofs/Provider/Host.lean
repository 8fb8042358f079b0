import PathCatalog.Proofs.Provider.Walk

namespace PathCatalog

/-- The components of the parts pick what the parts pick. -/
theorem Glob.picksAll_parse {parts : List String} {way : Location}
    (whole : ∀ name ∈ way, separator ∉ name.toList) :
    PicksAll (parts.map Component.parse) way ↔ List.Forall₂ Picks parts way := by
  induction way generalizing parts with
  | nil => simp [PicksAll]
  | cons name way ih =>
      obtain ⟨here, others⟩ := List.forall_mem_cons.mp whole
      cases parts with
      | nil => simp [PicksAll]
      | cons part parts =>
          have rest := @ih parts others
          unfold PicksAll at rest ⊢
          rw [List.map_cons, List.forall₂_cons, List.forall₂_cons, rest, Component.picks_parse here]

theorem Glob.Downward.isStep {pattern : String} (downward : Downward pattern) :
    ∀ component ∈ (steps pattern).map Component.parse, component.IsStep := by
  intro component member
  obtain ⟨part, step, rfl⟩ := List.mem_map.mp member
  exact Component.isStep_parse (downward part step)

namespace Tree

/-- The walk from a directory down the steps of a pattern. -/
def walkSteps (tree : Tree) (pattern : String) (directory : Location) : List String :=
  tree.walk (endsInSeparator pattern) ((Glob.steps pattern).map Component.parse) directory ""

variable {tree : Tree} {directory : Location} {pattern : String}
  (regular : tree.RegularBelow directory) (downward : Glob.Downward pattern)

include regular downward

/-- The walk takes the ways that the steps of the pattern pick. -/
theorem mem_reached_steps {directoriesOnly : Bool} {way : Location} :
    way ∈ tree.reached directoriesOnly ((Glob.steps pattern).map Component.parse) directory ↔
      ∃ entry, (way, entry) ∈ tree.entriesBelow directory ∧
        List.Forall₂ Glob.Picks (Glob.steps pattern) way ∧
        (directoriesOnly = true → entry = .directory) := by
  have some : (Glob.steps pattern).map Component.parse ≠ [] := by
    simpa using Glob.steps_ne_nil pattern
  rw [mem_reached regular some downward.isStep]
  constructor
  · intro holds
    obtain ⟨picks, entry, member, shown⟩ := holds
    exact ⟨entry, member, (Glob.picksAll_parse (regular.whole member)).mp picks, shown⟩
  · intro holds
    obtain ⟨entry, member, picks, shown⟩ := holds
    exact ⟨(Glob.picksAll_parse (regular.whole member)).mpr picks, entry, member, shown⟩

theorem walkSteps_eq_map_reached :
    tree.walkSteps pattern directory =
      (tree.reached (endsInSeparator pattern) ((Glob.steps pattern).map Component.parse)
        directory).map (spelledWay (endsInSeparator pattern)) := by
  unfold walkSteps
  rw [walk_eq_map_reached regular downward.isStep]
  simp only [String.empty_append]

/-- The walk shows the paths that the pattern selects. -/
theorem mem_walkSteps {path : String} :
    path ∈ tree.walkSteps pattern directory ↔ tree.Selects directory pattern path := by
  rw [walkSteps_eq_map_reached regular downward, List.mem_map]
  constructor
  · intro holds
    obtain ⟨way, taken, rfl⟩ := holds
    obtain ⟨entry, member, picks, shown⟩ := (mem_reached_steps regular downward).mp taken
    exact ⟨way, entry, member, picks, shown, rfl⟩
  · intro holds
    obtain ⟨way, entry, member, picks, shown, rfl⟩ := holds
    exact ⟨way, (mem_reached_steps regular downward).mpr ⟨entry, member, picks, shown⟩, rfl⟩

/-- Different ways are shown as different paths. -/
theorem nodup_walkSteps : (tree.walkSteps pattern directory).Nodup := by
  rw [walkSteps_eq_map_reached regular downward]
  apply List.Nodup.map_on _ (nodup_reached regular downward.isStep)
  intro way taken other later same
  obtain ⟨_, member, _⟩ := (mem_reached_steps regular downward).mp taken
  obtain ⟨_, others, _⟩ := (mem_reached_steps regular downward).mp later
  exact spelledWay_injective (regular.whole member) (regular.whole others)
    (mem_entriesBelow.mp member).1 (mem_entriesBelow.mp others).1 same

end Tree

namespace Host

section Based

variable {host : Host} {directory : Location} {pattern : String}
  (based : host.tree.directoryAt host.workingDirectory host.base = .ok directory)

include based

/-- A base that is a directory is where the walk starts. -/
theorem start_eq_ok (components : List Component) : host.start components = .ok directory := by
  have filled : host.base.isEmpty = false := by
    cases empty : host.base.isEmpty with
    | false => rfl
    | true => simp [Tree.directoryAt, Tree.resolve, empty] at based
  unfold start
  rw [filled]
  exact based

/-- The steps of the pattern are walked down from the base. -/
theorem matching_eq_walkSteps (downward : Glob.Downward pattern) :
    host.matching pattern = .done (host.tree.walkSteps pattern directory) := by
  have relative : ¬ (pattern.toList.head? == some separator) = true := by
    simpa using downward.relative
  unfold matching Tree.walkSteps
  simp only [downward.asksDirectories, Glob.components_eq_steps, start_eq_ok based]
  rw [if_neg relative]

theorem outcome_provider (downward : Glob.Downward pattern) :
    (host.provider pattern).outcome = .ok (host.tree.walkSteps pattern directory) := by
  have filled : pattern.isEmpty = false := by simpa using downward.filled
  unfold provider
  rw [filled, matching_eq_walkSteps based downward]
  rfl

/-- The answer to a pattern that leads down is the list of what the pattern selects, each once. -/
theorem provider_selects (regular : host.tree.RegularBelow directory)
    (downward : Glob.Downward pattern) :
    ∃ found, (host.provider pattern).outcome = .ok found ∧ found.Nodup ∧
      ∀ path, path ∈ found ↔ host.tree.Selects directory pattern path := by
  refine ⟨_, outcome_provider based downward, Tree.nodup_walkSteps regular downward, ?_⟩
  intro path
  exact Tree.mem_walkSteps regular downward

end Based

/-- Hidden directories and files stay out, and the directories of the second level are shown. -/
theorem provider_selects_nested :
    let tree : Tree := ⟨[(["a1"], .directory), (["a1", "b"], .directory), (["a1", ".h"], .directory),
      (["a1", "c"], .file ""), (["b"], .directory), (["b", "b"], .directory)]⟩
    (Host.provider ⟨tree, [], "."⟩ "a*/*/").outcome = .ok ["a1/b/"] ∧
      ∀ path, path ∈ ["a1/b/"] ↔ tree.Selects [] "a*/*/" path := by
  intro tree
  have run : (Host.provider ⟨tree, [], "."⟩ "a*/*/").outcome = .ok ["a1/b/"] := by decide +kernel
  have regular : tree.RegularBelow [] := by decide +kernel
  have downward : Glob.Downward "a*/*/" := by decide +kernel
  obtain ⟨found, reached, _, selected⟩ :=
    @provider_selects ⟨tree, [], "."⟩ [] "a*/*/" (by decide +kernel) regular downward
  have same : found = ["a1/b/"] := Except.ok.inj (reached.symm.trans run)
  exact ⟨run, same ▸ selected⟩

end Host

end PathCatalog
