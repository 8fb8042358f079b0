import PathCatalog.Proofs.Outcome
import PathCatalog.Proofs.Provider.Spelled
import PathCatalog.Proofs.Provider.Tree
import PathCatalog.Provider.Walk

namespace PathCatalog

/-- A component that leads one level down: a plain one is a name. -/
def Component.IsStep : Component → Prop
  | .name text => IsName text
  | .wild _ => True

theorem Component.isStep_parse {part : String} (named : IsName part) :
    (Component.parse part).IsStep := by
  unfold parse
  split
  · trivial
  · exact named

theorem Component.ne_empty_of_isStep {component : Component} (leads : component.IsStep) :
    component ≠ .name "" := by
  intro same
  subst same
  exact leads.filled rfl

/-- The components pick the names one by one, and there are as many of both. -/
def Glob.PicksAll (components : List Component) (way : Location) : Prop :=
  List.Forall₂ (fun component name => component.picks name = true) components way

theorem Glob.picksAll_cons {component : Component} {components : List Component} {way : Location} :
    PicksAll (component :: components) way ↔ ∃ name rest, way = name :: rest ∧
      component.picks name = true ∧ PicksAll components rest := by
  rw [PicksAll, List.forall₂_cons_left_iff]
  constructor
  · intro holds
    obtain ⟨name, rest, picks, others, rfl⟩ := holds
    exact ⟨name, rest, rfl, picks, others⟩
  · intro holds
    obtain ⟨name, rest, rfl, picks, others⟩ := holds
    exact ⟨name, rest, picks, others, rfl⟩

theorem Glob.picksAll_singleton {component : Component} {way : Location} :
    PicksAll [component] way ↔ ∃ name, way = [name] ∧ component.picks name = true := by
  rw [picksAll_cons]
  constructor
  · intro holds
    obtain ⟨name, rest, rfl, picks, others⟩ := holds
    cases others
    exact ⟨name, rfl, picks⟩
  · intro holds
    obtain ⟨name, rfl, picks⟩ := holds
    exact ⟨name, [], rfl, picks, .nil⟩

theorem Glob.ne_nil_of_picksAll {component : Component} {components : List Component}
    {way : Location} (picks : PicksAll (component :: components) way) : way ≠ [] := by
  obtain ⟨name, rest, rfl, _⟩ := picksAll_cons.mp picks
  simp

namespace Tree

theorem step_of_isName {name : String} (named : IsName name) (directory : Location) :
    step directory name = directory ++ [name] := by
  simp [step, named.filled, named.down]

variable {tree : Tree} {directory way : Location} {entry : Entry} {name : String}
  {component : Component} {components : List Component} {directoriesOnly : Bool}

theorem mem_names :
    name ∈ tree.names directory ↔ ∃ entry, ([name], entry) ∈ tree.entriesBelow directory := by
  simp only [names, List.mem_filterMap, nameIn?_eq_some, mem_entriesBelow]
  constructor
  · intro holds
    obtain ⟨⟨place, held⟩, member, rfl⟩ := holds
    exact ⟨held, by simp, member⟩
  · intro holds
    obtain ⟨held, _, member⟩ := holds
    exact ⟨_, member, rfl⟩

section Level

variable (regular : tree.RegularBelow directory)

include regular

theorem nodup_names : (tree.names directory).Nodup := by
  have single : tree.names directory = ((tree.entriesBelow directory).map Prod.fst).filterMap
      fun way => nameIn? [] way := by
    simp only [names, entriesBelow, List.map_filterMap, List.filterMap_filterMap, Option.map_map]
    apply List.filterMap_congr
    intro entry _
    apply Option.ext
    intro name
    simp [Option.bind_eq_some_iff, nameIn?_eq_some, wayFrom_eq_some]
  rw [single]
  apply List.Nodup.filterMap _ regular.distinct
  intro first second name one other
  rw [nameIn?_eq_some.mp one, nameIn?_eq_some.mp other]

/-- A component that leads down picks names of entries. -/
theorem mem_picked (leads : component.IsStep) :
    name ∈ tree.picked directory component ↔
      component.picks name = true ∧ ∃ entry, ([name], entry) ∈ tree.entriesBelow directory := by
  cases component with
  | wild segments =>
      rw [picked, List.mem_filter, mem_names]
      exact and_comm
  | name text =>
      have below (entry : Entry) : tree.entry? (directory ++ [text]) = some entry ↔
          ([text], entry) ∈ tree.entriesBelow directory := regular.entry?_eq_some (by simp)
      have there : (tree.entry? (directory ++ [text])).isSome = true ↔
          ∃ entry, ([text], entry) ∈ tree.entriesBelow directory := by
        simp only [Option.isSome_iff_exists, below]
      have picks : (Component.name text).picks name = true ↔ name = text := by
        simp [Component.picks, Component.accepts, Component.isWild]
      rw [picked, step_of_isName leads, picks]
      split
      next found =>
        rw [List.mem_singleton]
        constructor
        · intro same
          exact ⟨same, same ▸ there.mp found⟩
        · exact And.left
      next missing =>
        constructor
        · intro impossible
          cases impossible
        · intro holds
          obtain ⟨rfl, found⟩ := holds
          exact absurd (there.mpr found) missing

theorem nodup_picked (component : Component) : (tree.picked directory component).Nodup := by
  cases component with
  | name text =>
      rw [picked]
      split
      · exact List.nodup_singleton text
      · exact List.nodup_nil
  | wild segments => exact (nodup_names regular).filter _

/-- A step to a picked name leads one level down. -/
theorem step_of_picked (leads : component.IsStep)
    (picked : name ∈ tree.picked directory component) :
    step directory name = directory ++ [name] := by
  obtain ⟨_, entry, member⟩ := (mem_picked regular leads).mp picked
  exact step_of_isName (regular.named _ member name List.mem_cons_self) directory

end Level

/-- The ways that a walk takes. -/
def reached (tree : Tree) (directoriesOnly : Bool) : List Component → Location → List Location
  | [], _ => []
  | [last], directory => (tree.picked directory last).flatMap fun name =>
      if !directoriesOnly || tree.isDirectory (step directory name) then [[name]] else []
  | component :: next :: rest, directory => (tree.picked directory component).flatMap fun name =>
      if tree.isDirectory (step directory name) then
        (tree.reached directoriesOnly (next :: rest) (step directory name)).map (name :: ·)
      else []

/-- The last component picks entries, or directories only. -/
theorem mem_reached_last (regular : tree.RegularBelow directory) (leads : component.IsStep) :
    way ∈ tree.reached directoriesOnly [component] directory ↔
      ∃ name entry, way = [name] ∧ component.picks name = true ∧
        ([name], entry) ∈ tree.entriesBelow directory ∧
        (directoriesOnly = true → entry = .directory) := by
  simp only [reached, List.mem_flatMap]
  apply exists_congr
  intro name
  constructor
  · intro holds
    obtain ⟨picked, taken⟩ := holds
    obtain ⟨picks, entry, member⟩ := (mem_picked regular leads).mp picked
    rw [step_of_picked regular leads picked,
      regular.isDirectory_of_mem member] at taken
    refine ⟨entry, ?_, picks, member, ?_⟩
    all_goals cases directoriesOnly <;> cases entry <;> simp_all
  · intro holds
    obtain ⟨entry, rfl, picks, member, shown⟩ := holds
    have picked := (mem_picked regular leads).mpr ⟨picks, entry, member⟩
    rw [step_of_picked regular leads picked, regular.isDirectory_of_mem member]
    refine ⟨picked, ?_⟩
    cases directoriesOnly <;> simp_all

/-- A component that is not the last one picks directories, and the walk goes on from there. -/
theorem mem_reached_inner {next : Component} (regular : tree.RegularBelow directory)
    (leads : component.IsStep) :
    way ∈ tree.reached directoriesOnly (component :: next :: components) directory ↔
      ∃ name rest, way = name :: rest ∧ component.picks name = true ∧
        ([name], .directory) ∈ tree.entriesBelow directory ∧
        rest ∈ tree.reached directoriesOnly (next :: components) (directory ++ [name]) := by
  simp only [reached, List.mem_flatMap]
  apply exists_congr
  intro name
  constructor
  · intro holds
    obtain ⟨picked, taken⟩ := holds
    obtain ⟨picks, _⟩ := (mem_picked regular leads).mp picked
    rw [step_of_picked regular leads picked] at taken
    split at taken
    next inner =>
      obtain ⟨rest, deeper, rfl⟩ := List.mem_map.mp taken
      exact ⟨rest, rfl, picks, (regular.isDirectory_iff (by simp)).mp inner, deeper⟩
    next => cases taken
  · intro holds
    obtain ⟨rest, rfl, picks, member, deeper⟩ := holds
    have picked := (mem_picked regular leads).mpr ⟨picks, _, member⟩
    have inner := (regular.isDirectory_iff (by simp)).mpr member
    rw [step_of_picked regular leads picked, if_pos inner]
    exact ⟨picked, List.mem_map_of_mem deeper⟩

/-- A walk takes the ways whose names the components pick, and only these. -/
theorem mem_reached (regular : tree.RegularBelow directory) (some : components ≠ [])
    (leads : ∀ component ∈ components, component.IsStep) :
    way ∈ tree.reached directoriesOnly components directory ↔
      Glob.PicksAll components way ∧ ∃ entry, (way, entry) ∈ tree.entriesBelow directory ∧
        (directoriesOnly = true → entry = .directory) := by
  induction components generalizing directory way with
  | nil => exact absurd rfl some
  | cons component rest ih =>
      obtain ⟨here, later⟩ := List.forall_mem_cons.mp leads
      cases rest with
      | nil =>
          rw [mem_reached_last regular here]
          constructor
          · intro holds
            obtain ⟨name, entry, rfl, picks, member, shown⟩ := holds
            exact ⟨Glob.picksAll_singleton.mpr ⟨name, rfl, picks⟩, entry, member, shown⟩
          · intro holds
            obtain ⟨picks, entry, member, shown⟩ := holds
            obtain ⟨name, rfl, chosen⟩ := Glob.picksAll_singleton.mp picks
            exact ⟨name, entry, rfl, chosen, member, shown⟩
      | cons next rest =>
          rw [mem_reached_inner regular here]
          constructor
          · intro holds
            obtain ⟨name, others, rfl, picks, _, deeper⟩ := holds
            obtain ⟨more, entry, member, shown⟩ :=
              (ih (regular.child name) (by simp) later).mp deeper
            obtain ⟨_, longer⟩ := mem_entriesBelow_child.mp member
            exact ⟨Glob.picksAll_cons.mpr ⟨name, others, rfl, picks, more⟩, entry, longer, shown⟩
          · intro holds
            obtain ⟨picks, entry, member, shown⟩ := holds
            obtain ⟨name, others, rfl, chosen, more⟩ := Glob.picksAll_cons.mp picks
            have filled : others ≠ [] := Glob.ne_nil_of_picksAll more
            have inner : tree.isDirectory (directory ++ [name]) = true :=
              regular.isDirectory_of_prefix filled member
            refine ⟨name, others, rfl, chosen, (regular.isDirectory_iff (by simp)).mp inner, ?_⟩
            exact (ih (regular.child name) (by simp) later).mpr
              ⟨more, entry, mem_entriesBelow_child.mpr ⟨filled, member⟩, shown⟩

/-- Ways that begin with different names are different. -/
theorem nodup_flatMap_of_head {taken : String → List Location} {names : List String}
    (distinct : names.Nodup) (each : ∀ name ∈ names, (taken name).Nodup)
    (begun : ∀ name, ∀ way ∈ taken name, way.head? = some name) : (names.flatMap taken).Nodup := by
  rw [List.nodup_flatMap]
  refine ⟨each, distinct.imp ?_⟩
  intro first second different way one other
  have same := (begun first way one).symm.trans (begun second way other)
  exact different (Option.some.inj same)

/-- No way is taken twice. -/
theorem nodup_reached (regular : tree.RegularBelow directory)
    (leads : ∀ component ∈ components, component.IsStep) :
    (tree.reached directoriesOnly components directory).Nodup := by
  induction components generalizing directory with
  | nil => exact List.nodup_nil
  | cons component rest ih =>
      obtain ⟨here, later⟩ := List.forall_mem_cons.mp leads
      cases rest with
      | nil =>
          apply nodup_flatMap_of_head (nodup_picked regular component)
          · intro name _
            split
            · exact List.nodup_singleton [name]
            · exact List.nodup_nil
          · intro name way taken
            split at taken
            · rw [List.mem_singleton.mp taken]
              rfl
            · cases taken
      | cons next rest =>
          apply nodup_flatMap_of_head (nodup_picked regular component)
          · intro name picked
            rw [step_of_picked regular here picked]
            split
            · exact (ih (regular.child name) later).map List.cons_injective
            · exact List.nodup_nil
          · intro name way taken
            split at taken
            · obtain ⟨rest, _, rfl⟩ := List.mem_map.mp taken
              rfl
            · cases taken

/-- What a walk shows are the ways that it takes. -/
theorem walk_eq_map_reached (regular : tree.RegularBelow directory)
    (leads : ∀ component ∈ components, component.IsStep) (shown : String) :
    tree.walk directoriesOnly components directory shown =
      (tree.reached directoriesOnly components directory).map fun way =>
        shown ++ spelledWay directoriesOnly way := by
  induction components generalizing directory shown with
  | nil => rfl
  | cons component rest ih =>
      obtain ⟨here, later⟩ := List.forall_mem_cons.mp leads
      cases rest with
      | nil =>
          rw [walk, reached, List.map_flatMap]
          apply List.flatMap_congr
          intro name _
          unfold shownLast
          cases directoriesOnly <;> cases tree.isDirectory (step directory name) <;>
            simp [spelledWay_singleton, String.append_assoc]
      | cons next rest =>
          rw [walk, if_neg (Component.ne_empty_of_isStep here), reached, List.map_flatMap]
          apply List.flatMap_congr
          intro name picked
          rw [step_of_picked regular here picked]
          split
          · rw [ih (regular.child name) later, List.map_map]
            apply List.map_congr_left
            intro way taken
            obtain ⟨_, entry, member, _⟩ :=
              (mem_reached (regular.child name) (by simp) later).mp taken
            have filled : way ≠ [] := (mem_entriesBelow.mp member).1
            simp only [Function.comp_apply, spelledWay_cons directoriesOnly filled,
              String.append_assoc]
          · rfl

end Tree

end PathCatalog
