import PathCatalog.Proofs.Outcome
import PathCatalog.Proofs.Provider.Steps
import PathCatalog.Proofs.Provider.Tree
import PathCatalog.Provider
import PathCatalog.Provider.Walk

namespace PathCatalog

/-- The number of separators in a text. -/
def depth (text : String) : Nat :=
  text.toList.count separator

@[simp] theorem depth_empty : depth "" = 0 := rfl

@[simp] theorem depth_separator : depth "/" = 1 := by decide

@[simp] theorem depth_append (front back : String) :
    depth (front ++ back) = depth front + depth back := by
  unfold depth
  rw [String.toList_append, List.count_append]

theorem depth_eq_zero_iff {text : String} : depth text = 0 ↔ separator ∉ text.toList :=
  List.count_eq_zero

/-- Components are parted by the separators of the pattern. -/
theorem Glob.length_parse (pattern : String) : (parse pattern).length = depth pattern + 1 := by
  simp only [parse, Text.parts, List.length_map, length_splitOn]
  rfl

/-- A text that a pattern covers holds as many separators as the pattern. -/
theorem Glob.Covers.depth_eq {pattern text : String} (covers : Covers pattern.toList text.toList) :
    depth text = depth pattern := by
  unfold depth
  generalize pattern.toList = pattern, text.toList = text at covers
  induction covers with
  | nil => rfl
  | char _ _ ih => rw [List.count_cons, List.count_cons, ih]
  | wild filling inside _ ih =>
      rw [List.count_append, List.count_eq_zero.mpr inside, ih, List.count_cons_of_ne (by decide),
        Nat.zero_add]

namespace Provider

/-- All paths in an answer hold as many separators as the pattern. -/
def KeepsDepth (provider : Provider) : Prop :=
  ∀ pattern answer, (provider pattern).outcome = .ok answer →
    ∀ path ∈ answer, depth path = depth pattern

theorem keepsDepth_listed (paths : List String) : (listed paths).KeepsDepth := by
  intro pattern answer answered path member
  unfold listed at answered
  split at answered
  · cases answered
    cases member
  · cases answered
    exact ((Glob.accepts_iff_covers pattern path).mp (List.mem_filter.mp member).2).depth_eq

end Provider

/-- The text of a plain component holds no separator. -/
def Component.Whole : Component → Prop
  | .name text => separator ∉ text.toList
  | .wild _ => True

theorem Glob.whole_parse (pattern : String) : ∀ component ∈ parse pattern, component.Whole := by
  intro component member
  obtain ⟨part, inside, rfl⟩ := List.mem_map.mp member
  obtain ⟨chars, cut, rfl⟩ := List.mem_map.mp inside
  unfold Component.parse
  split
  · trivial
  · change separator ∉ (String.ofList chars).toList
    rw [String.toList_ofList]
    exact not_mem_of_mem_splitOn cut

namespace Tree

/-- No name in the tree holds a separator. -/
def Whole (tree : Tree) : Prop :=
  ∀ entry ∈ tree.entries, ∀ name ∈ entry.1, separator ∉ name.toList

instance (tree : Tree) : Decidable tree.Whole :=
  inferInstanceAs (Decidable (∀ entry ∈ tree.entries, ∀ name ∈ entry.1, separator ∉ name.toList))

variable {tree : Tree} {directory : Location} {component : Component}
  {components : List Component} {directoriesOnly : Bool} {shown name path : String}

theorem depth_of_mem_picked (whole : tree.Whole) (plain : component.Whole)
    (picked : name ∈ tree.picked directory component) : depth name = 0 := by
  apply depth_eq_zero_iff.mpr
  cases component with
  | name text =>
      rw [Tree.picked] at picked
      split at picked
      next =>
        obtain rfl : name = text := List.mem_singleton.mp picked
        exact plain
      next => cases picked
  | wild segments =>
      obtain ⟨listed, _⟩ := List.mem_filter.mp picked
      obtain ⟨entry, member, named⟩ := List.mem_filterMap.mp listed
      apply whole entry member
      rw [nameIn?_eq_some.mp named]
      simp

/-- A walk adds a name for each component, and separators between them. -/
theorem depth_of_mem_walk (whole : tree.Whole) (plain : ∀ component ∈ components, component.Whole)
    (walked : path ∈ tree.walk directoriesOnly components directory shown) :
    depth path + 1 = depth shown + components.length + if directoriesOnly then 1 else 0 := by
  induction components generalizing directory shown with
  | nil => cases walked
  | cons component rest ih =>
      obtain ⟨here, later⟩ := List.forall_mem_cons.mp plain
      cases rest with
      | nil =>
          obtain ⟨name, picked, taken⟩ := List.mem_flatMap.mp walked
          have single := depth_of_mem_picked whole here picked
          unfold shownLast at taken
          split at taken
          · rw [List.mem_singleton.mp taken]
            simp_all
          · split at taken
            · rw [List.mem_singleton.mp taken]
              simp_all
            · cases taken
      | cons next rest =>
          unfold walk at walked
          split at walked
          · have deeper := ih later walked
            simp only [depth_append, depth_separator, List.length_cons] at deeper ⊢
            omega
          · obtain ⟨name, picked, taken⟩ := List.mem_flatMap.mp walked
            have single := depth_of_mem_picked whole here picked
            split at taken
            · have deeper := ih later taken
              simp only [depth_append, depth_separator, List.length_cons] at deeper ⊢
              omega
            · cases taken

/-- Asked for directories, a walk leaves out the empty component behind the last separator. -/
theorem depth_of_mem_walk_all (whole : tree.Whole)
    (plain : ∀ component ∈ components, component.Whole)
    (walked : path ∈ tree.walk directoriesOnly
      (if directoriesOnly then components.dropLast else components) directory shown) :
    depth path + 1 = depth shown + components.length := by
  cases directoriesOnly with
  | false => exact depth_of_mem_walk whole plain walked
  | true =>
      have some : components ≠ [] := by
        intro none
        subst none
        cases walked
      have size : 0 < components.length := List.length_pos_iff.mpr some
      have shorter := depth_of_mem_walk whole
        (fun component inside => plain component (List.dropLast_subset _ inside)) walked
      rw [if_pos rfl, List.length_dropLast] at shorter
      omega

end Tree

namespace Host

variable {host : Host} {pattern path : String} {found : List String}

theorem walkNowhere_eq_ok {base : String} {obstacle : Obstacle} {components : List Component}
    (reached : (walkNowhere base obstacle components).outcome = .ok found) : found = [] := by
  cases components with
  | nil =>
      cases reached
      rfl
  | cons component rest =>
      cases component with
      | name text =>
          cases reached
          rfl
      | wild segments =>
          cases obstacle with
          | missing =>
              obtain ⟨_, _, same⟩ := Logged.outcome_bind_eq_ok.mp reached
              exact (Except.ok.inj same).symm
          | notDirectory => cases reached
          | isDirectory => cases reached

theorem depth_of_mem_matching (whole : host.tree.Whole)
    (reached : (host.matching pattern).outcome = .ok found) (member : path ∈ found) :
    depth path = depth pattern := by
  have size := Glob.length_parse pattern
  have plain := Glob.whole_parse pattern
  unfold matching at reached
  dsimp only at reached
  split at reached
  next absolute =>
    cases reached
    have walked := Tree.depth_of_mem_walk_all whole
      (fun component inside => plain component (List.mem_of_mem_tail inside)) member
    rw [depth_separator, List.length_tail, size] at walked
    omega
  next relative =>
    split at reached
    next directory _ =>
      cases reached
      have walked := Tree.depth_of_mem_walk_all whole plain member
      rw [depth_empty, size] at walked
      omega
    next =>
      rw [walkNowhere_eq_ok reached] at member
      cases member

theorem keepsDepth_provider (whole : host.tree.Whole) : host.provider.KeepsDepth := by
  intro pattern answer answered path member
  unfold provider at answered
  split at answered
  · cases answered
    cases member
  · obtain ⟨found, reached, answered⟩ := Logged.outcome_bind_eq_ok.mp answered
    obtain ⟨_, _, same⟩ := Logged.outcome_bind_eq_ok.mp answered
    obtain rfl : found = answer := Except.ok.inj same
    exact depth_of_mem_matching whole reached member

end Host

end PathCatalog
