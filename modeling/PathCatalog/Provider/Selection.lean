import Mathlib.Data.List.Forall2
import PathCatalog.Provider.Tree

namespace PathCatalog

/-- A name of an entry: not empty, without a separator, and no step to itself or upwards. -/
structure IsName (name : String) : Prop where
  filled : name ≠ ""
  whole : separator ∉ name.toList
  down : name ≠ "." ∧ name ≠ ".."

instance (name : String) : Decidable (IsName name) :=
  decidable_of_iff (name ≠ "" ∧ separator ∉ name.toList ∧ name ≠ "." ∧ name ≠ "..")
    ⟨fun holds => ⟨holds.1, holds.2.1, holds.2.2⟩,
      fun named => ⟨named.filled, named.whole, named.down⟩⟩

/-- Hidden names start with a dot. -/
def IsHidden (name : String) : Prop :=
  name.toList.head? = some '.'

instance (name : String) : Decidable (IsHidden name) :=
  inferInstanceAs (Decidable (name.toList.head? = some '.'))

namespace Glob

/-- The parts of a pattern that stand for names; a separator at its end only asks for directories.
-/
def steps (pattern : String) : List String :=
  let parts := Text.parts separator pattern
  if endsInSeparator pattern then parts.dropLast else parts

/-- Each step of the pattern leads one level down, so the pattern is neither empty nor absolute. -/
def Downward (pattern : String) : Prop :=
  ∀ part ∈ steps pattern, IsName part

instance (pattern : String) : Decidable (Downward pattern) :=
  inferInstanceAs (Decidable (∀ part ∈ steps pattern, IsName part))

/-- A part picks the names that it covers; with a wildcard it has to be hidden to pick hidden ones.
-/
structure Picks (part name : String) : Prop where
  covers : Covers part.toList name.toList
  shown : '*' ∈ part.toList → IsHidden name → IsHidden part

end Glob

/-- The way from a directory to a place below it. -/
def wayFrom (directory place : Location) : Option Location :=
  match directory.isPrefixOf? place with
  | some (name :: way) => some (name :: way)
  | _ => none

/-- A way as a path; one that is asked for as a directory ends in a separator. -/
def spelledWay (asDirectory : Bool) (way : Location) : String :=
  if asDirectory then Text.joined "/" way ++ "/" else Text.joined "/" way

namespace Tree

/-- The ways to the entries below a directory, each with what lies there. -/
def entriesBelow (tree : Tree) (directory : Location) : List (Location × Entry) :=
  tree.entries.filterMap fun entry => (wayFrom directory entry.1).map fun way => (way, entry.2)

/-- Below a directory every place holds one entry, its names are names, and directories hold it. -/
structure RegularBelow (tree : Tree) (directory : Location) : Prop where
  distinct : ((tree.entriesBelow directory).map Prod.fst).Nodup
  named : ∀ entry ∈ tree.entriesBelow directory, ∀ name ∈ entry.1, IsName name
  held : ∀ entry ∈ tree.entriesBelow directory,
    tree.isDirectory (directory ++ entry.1.dropLast) = true

instance (tree : Tree) (directory : Location) : Decidable (tree.RegularBelow directory) :=
  decidable_of_iff (((tree.entriesBelow directory).map Prod.fst).Nodup ∧
      (∀ entry ∈ tree.entriesBelow directory, ∀ name ∈ entry.1, IsName name) ∧
      ∀ entry ∈ tree.entriesBelow directory,
        tree.isDirectory (directory ++ entry.1.dropLast) = true)
    ⟨fun holds => ⟨holds.1, holds.2.1, holds.2.2⟩,
      fun regular => ⟨regular.distinct, regular.named, regular.held⟩⟩

/-- No name below a directory is hidden. -/
def VisibleBelow (tree : Tree) (directory : Location) : Prop :=
  ∀ entry ∈ tree.entriesBelow directory, ∀ name ∈ entry.1, ¬ IsHidden name

instance (tree : Tree) (directory : Location) : Decidable (tree.VisibleBelow directory) :=
  inferInstanceAs
    (Decidable (∀ entry ∈ tree.entriesBelow directory, ∀ name ∈ entry.1, ¬ IsHidden name))

/-- The ways to the files below a directory. -/
def filesBelow (tree : Tree) (directory : Location) : List Location :=
  (tree.entriesBelow directory).filterMap fun entry =>
    match entry.2 with
    | .file _ => some entry.1
    | .directory => none

/-- The path of a directory in which a file lies, not deeper. -/
def HoldsFile (tree : Tree) (directory : Location) (path : String) : Prop :=
  ∃ way name, way ++ [name] ∈ tree.filesBelow directory ∧ path = spelledWay true way

/-- The path spells the way to an entry below the directory whose names the steps of the pattern
pick. -/
def Selects (tree : Tree) (directory : Location) (pattern path : String) : Prop :=
  ∃ way entry, (way, entry) ∈ tree.entriesBelow directory ∧
    List.Forall₂ Glob.Picks (Glob.steps pattern) way ∧
    (endsInSeparator pattern = true → entry = .directory) ∧
    path = spelledWay (endsInSeparator pattern) way

end Tree

end PathCatalog
