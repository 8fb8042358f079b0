import PathCatalog.Proofs.Glob.Coverage
import PathCatalog.Proofs.Provider.Host
import PathCatalog.Proofs.Provider.Listed

namespace PathCatalog

theorem Component.picks_of_visible (component : Component) {name : String}
    (visible : ¬ IsHidden name) : component.picks name = component.accepts name := by
  have shown : (name.toList.head? != some '.') = true := by simpa [IsHidden] using visible
  simp [picks, shown]

namespace Glob

/-- Where no name is hidden, a listing picks what a comparison accepts. -/
theorem acceptsAll_iff_picksAll {components : List Component} {way : Location}
    (visible : ∀ name ∈ way, ¬ IsHidden name) :
    acceptsAll components way = true ↔ PicksAll components way := by
  induction way generalizing components with
  | nil => cases components <;> simp [acceptsAll, PicksAll]
  | cons name way ih =>
      obtain ⟨here, others⟩ := List.forall_mem_cons.mp visible
      cases components with
      | nil => simp [acceptsAll, PicksAll]
      | cons component components =>
          have rest := @ih components others
          unfold PicksAll at rest ⊢
          rw [acceptsAll, Bool.and_eq_true, rest, List.forall₂_cons, component.picks_of_visible here]

/-- The empty parts behind two separators go with each other. -/
theorem acceptsAll_concat_empty (components : List Component) (names : List String) :
    acceptsAll (components ++ [.name ""]) (names ++ [""]) = acceptsAll components names := by
  induction components generalizing names with
  | nil => cases names <;> simp [acceptsAll, Component.accepts]
  | cons component components ih =>
      cases names with
      | nil => cases components <;> simp [acceptsAll]
      | cons name names => simp [acceptsAll, ih]

/-- A path is compared name by name with the steps of a pattern that asks for such a path. -/
theorem accepts_spelledWay (pattern : String) {way : Location}
    (whole : ∀ name ∈ way, separator ∉ name.toList) (filled : way ≠ []) :
    (parse pattern).accepts (spelledWay (endsInSeparator pattern) way) =
      acceptsAll ((steps pattern).map Component.parse) way := by
  unfold accepts parse
  rw [parts_eq_steps, parts_spelledWay _ whole filled, List.map_append]
  split
  · exact acceptsAll_concat_empty _ way
  · simp

/-- The path of the base itself is accepted by a run of stars. -/
theorem accepts_base_iff {pattern : String} (ends : endsInSeparator pattern = true) :
    (parse pattern).accepts "/" = true ↔
      ∃ stars, pattern = stars ++ "/" ∧ ∀ c ∈ stars.toList, c = '*' := by
  obtain ⟨front, rfl⟩ := endsInSeparator_iff.mp ends
  have covers : (parse (front ++ "/")).accepts "/" = true ↔ Covers front.toList [] := by
    rw [accepts_iff_covers, String.toList_append, covers_append_iff]
    constructor
    · intro holds
      obtain ⟨first, last, before, closing, joined⟩ := holds
      obtain rfl := (covers_plain_iff (by decide)).mp closing
      have none : first = [] := by simpa using joined
      exact none ▸ before
    · intro before
      exact ⟨[], "/".toList, before, covers_refl _, rfl⟩
  rw [covers, covers_empty_iff]
  constructor
  · intro stars
    exact ⟨front, rfl, stars⟩
  · intro holds
    obtain ⟨stars, same, all⟩ := holds
    rwa [(String.append_left_inj "/").mp same]

end Glob

namespace Tree

variable {tree : Tree} {directory way : Location} {entry : Entry} {pattern path : String}

theorem mem_filesBelow :
    way ∈ tree.filesBelow directory ↔ ∃ text, (way, .file text) ∈ tree.entriesBelow directory := by
  unfold filesBelow
  rw [List.mem_filterMap]
  constructor
  · intro holds
    obtain ⟨⟨other, held⟩, member, found⟩ := holds
    cases held with
    | file text => exact ⟨text, Option.some.inj found ▸ member⟩
    | directory => cases found
  · intro holds
    obtain ⟨text, member⟩ := holds
    exact ⟨_, member, rfl⟩

section Visible

variable (regular : tree.RegularBelow directory) (visible : tree.VisibleBelow directory)

include regular visible

/-- The path of an entry is accepted when the steps of the pattern pick its names. -/
theorem accepts_iff_picks (member : (way, entry) ∈ tree.entriesBelow directory) :
    (Glob.parse pattern).accepts (spelledWay (endsInSeparator pattern) way) = true ↔
      List.Forall₂ Glob.Picks (Glob.steps pattern) way := by
  have whole := regular.whole member
  rw [Glob.accepts_spelledWay pattern whole (mem_entriesBelow.mp member).1,
    Glob.acceptsAll_iff_picksAll (visible _ member), Glob.picksAll_parse whole]

theorem Selects.accepts (selects : tree.Selects directory pattern path) :
    (Glob.parse pattern).accepts path = true := by
  obtain ⟨way, entry, member, picks, _, rfl⟩ := selects
  exact (accepts_iff_picks regular visible member).mpr picks

theorem selects_of_accepts (member : (way, entry) ∈ tree.entriesBelow directory)
    (shown : endsInSeparator pattern = true → entry = .directory)
    (accepts : (Glob.parse pattern).accepts (spelledWay (endsInSeparator pattern) way) = true) :
    tree.Selects directory pattern (spelledWay (endsInSeparator pattern) way) :=
  ⟨way, entry, member, (accepts_iff_picks regular visible member).mp accepts, shown, rfl⟩

/-- A pattern for entries accepts the same files as it selects. -/
theorem accepts_file_iff (ends : endsInSeparator pattern = false)
    (file : path ∈ (tree.filesBelow directory).map (Text.joined "/")) :
    (Glob.parse pattern).accepts path = true ↔ tree.Selects directory pattern path := by
  obtain ⟨way, lies, rfl⟩ := List.mem_map.mp file
  obtain ⟨text, member⟩ := mem_filesBelow.mp lies
  constructor
  · intro accepts
    have selects := @selects_of_accepts tree directory way _ pattern regular visible member
    rw [ends] at selects
    exact selects (by simp) accepts
  · exact Selects.accepts regular visible

/-- A pattern for directories accepts those with files that it selects, and the base for stars. -/
theorem accepts_directory_iff (ends : endsInSeparator pattern = true) :
    tree.HoldsFile directory path ∧ (Glob.parse pattern).accepts path = true ↔
      tree.Selects directory pattern path ∧ tree.HoldsFile directory path ∨
        path = "/" ∧ (∃ name, [name] ∈ tree.filesBelow directory) ∧
          ∃ stars, pattern = stars ++ "/" ∧ ∀ c ∈ stars.toList, c = '*' := by
  constructor
  · intro both
    obtain ⟨holds, accepts⟩ := both
    obtain ⟨way, name, lies, rfl⟩ := holds
    obtain ⟨text, member⟩ := mem_filesBelow.mp lies
    by_cases base : way = []
    · subst base
      exact .inr ⟨rfl, ⟨name, lies⟩, (Glob.accepts_base_iff ends).mp accepts⟩
    · have inner : tree.isDirectory (directory ++ way) = true :=
        regular.isDirectory_of_prefix (by simp) member
      have selects := @selects_of_accepts tree directory way _ pattern regular visible
        ((regular.isDirectory_iff base).mp inner) (fun _ => rfl)
      rw [ends] at selects
      exact .inl ⟨selects accepts, way, name, lies, rfl⟩
  · intro either
    rcases either with ⟨selects, holds⟩ | ⟨rfl, ⟨name, lies⟩, stars⟩
    · exact ⟨holds, selects.accepts regular visible⟩
    · exact ⟨⟨[], name, lies, rfl⟩, (Glob.accepts_base_iff ends).mpr stars⟩

end Visible

/-- The directories of files are the directories that hold a file. -/
theorem mem_map_parent (regular : tree.RegularBelow directory) {files : List String}
    (listed : ∀ path, path ∈ files ↔ path ∈ (tree.filesBelow directory).map (Text.joined "/")) :
    path ∈ files.map Provider.parent ↔ tree.HoldsFile directory path := by
  have parent {way : Location} {name : String} (lies : way ++ [name] ∈ tree.filesBelow directory) :
      Provider.parent (Text.joined "/" (way ++ [name])) = spelledWay true way := by
    obtain ⟨text, member⟩ := mem_filesBelow.mp lies
    exact Provider.parent_joined way (regular.whole member name (by simp))
  rw [List.mem_map]
  constructor
  · intro holds
    obtain ⟨file, inside, rfl⟩ := holds
    obtain ⟨way, lies, rfl⟩ := List.mem_map.mp ((listed file).mp inside)
    obtain ⟨text, member⟩ := mem_filesBelow.mp lies
    obtain ⟨front, name, rfl⟩ :=
      (List.eq_nil_or_concat' way).resolve_left (mem_entriesBelow.mp member).1
    exact ⟨front, name, lies, parent lies⟩
  · intro holds
    obtain ⟨way, name, lies, rfl⟩ := holds
    exact ⟨_, (listed _).mpr (List.mem_map_of_mem lies), parent lies⟩

end Tree

namespace Host

/-- A list of the files of a tree answers like the tree, but for a file in the base itself. -/
theorem listed_agrees {host : Host} {directory : Location} {pattern : String} {files : List String}
    (based : host.tree.directoryAt host.workingDirectory host.base = .ok directory)
    (regular : host.tree.RegularBelow directory) (visible : host.tree.VisibleBelow directory)
    (listed : ∀ path,
      path ∈ files ↔ path ∈ (host.tree.filesBelow directory).map (Text.joined "/"))
    (downward : Glob.Downward pattern) :
    ∃ answer found, (Provider.listed files pattern).outcome = .ok answer ∧
      (host.provider pattern).outcome = .ok found ∧
      (endsInSeparator pattern = false → ∀ path,
        path ∈ answer ↔ path ∈ found ∧ path ∈ files) ∧
      (endsInSeparator pattern = true → ∀ path,
        path ∈ answer ↔ path ∈ found ∧ host.tree.HoldsFile directory path ∨
          path = "/" ∧ (∃ name, [name] ∈ host.tree.filesBelow directory) ∧
            ∃ stars, pattern = stars ++ "/" ∧ ∀ c ∈ stars.toList, c = '*') := by
  refine ⟨_, _, Provider.outcome_listed downward.filled files, outcome_provider based downward,
    ?_, ?_⟩
  · intro ends path
    rw [List.mem_filter, Tree.mem_walkSteps regular downward, Provider.candidates, ends, and_comm]
    apply and_congr_left
    intro inside
    exact Tree.accepts_file_iff regular visible ends ((listed path).mp inside)
  · intro ends path
    have candidate : path ∈ Provider.candidates files pattern ↔
        host.tree.HoldsFile directory path := by
      rw [Provider.candidates, if_pos ends, Provider.mem_unseen, Tree.mem_map_parent regular listed]
      simp
    rw [List.mem_filter, Tree.mem_walkSteps regular downward, candidate]
    exact Tree.accepts_directory_iff regular visible ends

/-- Both providers leave out the empty directory; the list has a path for the base. -/
theorem listed_agrees_beside_base_file :
    let tree : Tree := ⟨[(["c"], .file ""), (["e"], .directory), (["x"], .directory),
      (["x", "y"], .file "")]⟩
    (Provider.listed ["c", "x/y"] "*/").outcome = .ok ["/", "x/"] ∧
      (Host.provider ⟨tree, [], "."⟩ "*/").outcome = .ok ["e/", "x/"] ∧
      ∀ path, path ∈ ["/", "x/"] ↔ path ∈ ["e/", "x/"] ∧ tree.HoldsFile [] path ∨
        path = "/" ∧ (∃ name, [name] ∈ tree.filesBelow []) ∧
          ∃ stars, "*/" = stars ++ "/" ∧ ∀ c ∈ stars.toList, c = '*' := by
  intro tree
  have first : (Provider.listed ["c", "x/y"] "*/").outcome = .ok ["/", "x/"] := by decide +kernel
  have second : (Host.provider ⟨tree, [], "."⟩ "*/").outcome = .ok ["e/", "x/"] := by
    decide +kernel
  have paths : (tree.filesBelow []).map (Text.joined "/") = ["c", "x/y"] := by decide +kernel
  obtain ⟨answer, found, answered, reached, _, directories⟩ :=
    @listed_agrees ⟨tree, [], "."⟩ [] "*/" ["c", "x/y"] (by decide +kernel) (by decide +kernel)
      (by decide +kernel) (fun path => by rw [paths]) (by decide +kernel)
  obtain rfl : answer = ["/", "x/"] := Except.ok.inj (answered.symm.trans first)
  obtain rfl : found = ["e/", "x/"] := Except.ok.inj (reached.symm.trans second)
  exact ⟨first, second, directories (by decide)⟩

/-- The walk never leads to the base, so directories with files are not always the same. -/
theorem listed_differs_for_base_file :
    ¬ ∀ (host : Host) (directory : Location) (pattern : String) (files : List String),
      host.tree.directoryAt host.workingDirectory host.base = .ok directory →
      host.tree.RegularBelow directory → host.tree.VisibleBelow directory →
      (∀ path, path ∈ files ↔ path ∈ (host.tree.filesBelow directory).map (Text.joined "/")) →
      Glob.Downward pattern →
      ∃ answer found, (Provider.listed files pattern).outcome = .ok answer ∧
        (host.provider pattern).outcome = .ok found ∧
        (endsInSeparator pattern = false → ∀ path,
          path ∈ answer ↔ path ∈ found ∧ path ∈ files) ∧
        (endsInSeparator pattern = true → ∀ path,
          path ∈ answer ↔ path ∈ found ∧ host.tree.HoldsFile directory path) := by
  intro agree
  let tree : Tree := ⟨[(["c"], .file "")]⟩
  have first : (Provider.listed ["c"] "*/").outcome = .ok ["/"] := by decide +kernel
  have second : (Host.provider ⟨tree, [], "."⟩ "*/").outcome = .ok [] := by decide +kernel
  have paths : (tree.filesBelow []).map (Text.joined "/") = ["c"] := by decide +kernel
  obtain ⟨answer, found, answered, reached, _, directories⟩ :=
    agree ⟨tree, [], "."⟩ [] "*/" ["c"] (by decide +kernel) (by decide +kernel)
      (by decide +kernel) (fun path => by rw [paths]) (by decide +kernel)
  obtain rfl : answer = ["/"] := Except.ok.inj (answered.symm.trans first)
  obtain rfl : found = [] := Except.ok.inj (reached.symm.trans second)
  have base := (directories (by decide) "/").mp List.mem_cons_self
  exact List.not_mem_nil base.1

end Host

end PathCatalog
