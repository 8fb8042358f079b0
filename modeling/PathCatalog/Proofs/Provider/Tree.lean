import Mathlib.Data.List.Induction
import Mathlib.Data.List.Nodup
import PathCatalog.Proofs.Entries
import PathCatalog.Provider.Selection

namespace PathCatalog

theorem wayFrom_eq_some {directory place way : Location} :
    wayFrom directory place = some way ↔ way ≠ [] ∧ place = directory ++ way := by
  unfold wayFrom
  constructor
  · intro found
    split at found
    next name rest ahead =>
      cases found
      exact ⟨by simp, (List.isPrefixOf?_eq_some_iff_append_eq.mp ahead).symm⟩
    next => cases found
  · intro holds
    obtain ⟨filled, rfl⟩ := holds
    obtain ⟨name, rest, rfl⟩ := List.exists_cons_of_ne_nil filled
    have ahead : directory.isPrefixOf? (directory ++ name :: rest) = some (name :: rest) :=
      List.isPrefixOf?_eq_some_iff_append_eq.mpr rfl
    rw [ahead]

/-- A way from a child is what comes after the name of the child. -/
theorem wayFrom_child (directory : Location) (name : String) (place : Location) :
    wayFrom (directory ++ [name]) place = (wayFrom directory place).bind (wayFrom [name]) := by
  apply Option.ext
  intro way
  rw [Option.bind_eq_some_iff, wayFrom_eq_some]
  constructor
  · intro holds
    obtain ⟨filled, rfl⟩ := holds
    refine ⟨name :: way, wayFrom_eq_some.mpr ⟨by simp, by simp⟩, ?_⟩
    exact wayFrom_eq_some.mpr ⟨filled, rfl⟩
  · intro holds
    obtain ⟨longer, first, second⟩ := holds
    obtain ⟨_, rfl⟩ := wayFrom_eq_some.mp first
    obtain ⟨filled, rfl⟩ := wayFrom_eq_some.mp second
    exact ⟨filled, by simp⟩

theorem nameIn?_eq_some {directory place : Location} {name : String} :
    Tree.nameIn? directory place = some name ↔ place = directory ++ [name] := by
  induction directory generalizing place with
  | nil =>
      cases place with
      | nil => simp [Tree.nameIn?]
      | cons first rest => cases rest <;> simp [Tree.nameIn?]
  | cons head directory ih =>
      cases place with
      | nil => simp [Tree.nameIn?]
      | cons first place =>
          by_cases same : head = first
          · simp [Tree.nameIn?, same, ih]
          · simp [Tree.nameIn?, same, Ne.symm same]

namespace Tree

variable {tree : Tree} {directory way : Location} {entry : Entry} {name : String}

theorem mem_entriesBelow :
    (way, entry) ∈ tree.entriesBelow directory ↔
      way ≠ [] ∧ (directory ++ way, entry) ∈ tree.entries := by
  simp only [entriesBelow, List.mem_filterMap, Option.map_eq_some_iff, Prod.mk.injEq]
  constructor
  · intro holds
    obtain ⟨⟨place, held⟩, member, found, ahead, rfl, rfl⟩ := holds
    obtain ⟨filled, rfl⟩ := wayFrom_eq_some.mp ahead
    exact ⟨filled, member⟩
  · intro holds
    obtain ⟨filled, member⟩ := holds
    exact ⟨_, member, way, wayFrom_eq_some.mpr ⟨filled, rfl⟩, rfl, rfl⟩

/-- Below a child lie the entries whose ways go on after its name. -/
theorem mem_entriesBelow_child :
    (way, entry) ∈ tree.entriesBelow (directory ++ [name]) ↔
      way ≠ [] ∧ (name :: way, entry) ∈ tree.entriesBelow directory := by
  simp [mem_entriesBelow]

theorem lookup_entriesBelow (filled : way ≠ []) :
    (tree.entriesBelow directory).lookup way = tree.entries.lookup (directory ++ way) := by
  unfold entriesBelow
  induction tree.entries with
  | nil => rfl
  | cons first rest ih =>
      obtain ⟨place, held⟩ := first
      rw [List.filterMap_cons]
      cases ahead : wayFrom directory place with
      | none =>
          have different : directory ++ way ≠ place := by
            intro same
            rw [wayFrom_eq_some.mpr ⟨filled, same.symm⟩] at ahead
            cases ahead
          simpa [lookup_cons_of_ne different] using ih
      | some other =>
          obtain ⟨_, rfl⟩ := wayFrom_eq_some.mp ahead
          by_cases same : way = other
          · simp [same]
          · have different : directory ++ way ≠ directory ++ other := by simpa using same
            simpa [lookup_cons_of_ne different, lookup_cons_of_ne same] using ih

namespace RegularBelow

variable (regular : tree.RegularBelow directory)

include regular

theorem whole (member : (way, entry) ∈ tree.entriesBelow directory) :
    ∀ name ∈ way, separator ∉ name.toList := by
  intro name inside
  exact (regular.named _ member name inside).whole

theorem entry?_eq_some (filled : way ≠ []) :
    tree.entry? (directory ++ way) = some entry ↔ (way, entry) ∈ tree.entriesBelow directory := by
  have below : (directory ++ way).isEmpty = false := by simp [filled]
  unfold entry?
  rw [below, ← lookup_entriesBelow filled]
  exact lookup_eq_some_iff_mem regular.distinct

theorem isDirectory_iff (filled : way ≠ []) :
    tree.isDirectory (directory ++ way) = true ↔
      (way, .directory) ∈ tree.entriesBelow directory := by
  rw [isDirectory, beq_iff_eq, regular.entry?_eq_some filled]

theorem isDirectory_of_mem (member : (way, entry) ∈ tree.entriesBelow directory) :
    tree.isDirectory (directory ++ way) = (entry == .directory) := by
  obtain ⟨filled, _⟩ := mem_entriesBelow.mp member
  rw [isDirectory, (regular.entry?_eq_some filled).mpr member]
  rfl

/-- Every place on the way to an entry is a directory. -/
theorem isDirectory_of_prefix {front back : Location} (filled : back ≠ [])
    (member : (front ++ back, entry) ∈ tree.entriesBelow directory) :
    tree.isDirectory (directory ++ front) = true := by
  -- the last name goes first: what is left of the way leads to the directory that held the entry
  induction back using List.reverseRecOn generalizing entry with
  | nil => exact absurd rfl filled
  | append_singleton rest last ih =>
      have holder := regular.held _ member
      rw [← List.append_assoc, List.dropLast_concat] at holder
      by_cases done : rest = []
      · simpa [done] using holder
      · have between : front ++ rest ≠ [] := by simp [done]
        exact ih done ((regular.isDirectory_iff between).mp holder)

/-- What holds below a directory holds below its children. -/
theorem child (name : String) : tree.RegularBelow (directory ++ [name]) where
  distinct := by
    have through : (tree.entriesBelow (directory ++ [name])).map Prod.fst =
        ((tree.entriesBelow directory).map Prod.fst).filterMap (wayFrom [name]) := by
      simp only [entriesBelow, List.map_filterMap, List.filterMap_filterMap, wayFrom_child,
        Option.map_map, Function.comp_def, Option.map_id']
    rw [through]
    apply List.Nodup.filterMap _ regular.distinct
    intro first second way one other
    obtain ⟨_, rfl⟩ := wayFrom_eq_some.mp one
    obtain ⟨_, rfl⟩ := wayFrom_eq_some.mp other
    rfl
  named := by
    intro entry member other inside
    obtain ⟨_, longer⟩ := mem_entriesBelow_child.mp member
    exact regular.named _ longer other (List.mem_cons_of_mem _ inside)
  held := by
    intro entry member
    obtain ⟨filled, longer⟩ := mem_entriesBelow_child.mp member
    have holder := regular.held _ longer
    rwa [List.dropLast_cons_of_ne_nil filled, List.append_cons] at holder

end RegularBelow

end Tree

end PathCatalog
