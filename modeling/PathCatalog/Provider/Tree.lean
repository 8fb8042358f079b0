import PathCatalog.Glob

namespace PathCatalog

/-- A place in a tree: the names that lead to it from the root. -/
abbrev Location := List String

inductive Entry where
  | file (text : String)
  | directory
  deriving DecidableEq, Repr

/-- What keeps a path from leading anywhere. -/
inductive Obstacle where
  | missing
  | notDirectory
  | isDirectory
  deriving DecidableEq, Repr

/-- The system's sentence for an obstacle. -/
def Obstacle.reason : Obstacle → String
  | .missing => "No such file or directory (os error 2)"
  | .notDirectory => "Not a directory (os error 20)"
  | .isDirectory => "Is a directory (os error 21)"

/-- The entries of a tree by their places; the root is a directory that is not listed. -/
structure Tree where
  entries : List (Location × Entry)
  deriving Repr

namespace Tree

def empty : Tree := ⟨[]⟩

instance : Inhabited Tree := ⟨empty⟩

def entry? (tree : Tree) (place : Location) : Option Entry :=
  if place.isEmpty then some .directory else tree.entries.lookup place

def isDirectory (tree : Tree) (place : Location) : Bool :=
  tree.entry? place == some .directory

/-- The entry is added, or a file takes the place of a file; nothing else that lies there changes.
-/
def add (tree : Tree) (place : Location) (entry : Entry) : Tree :=
  match tree.entry? place, entry with
  | none, _ => ⟨tree.entries ++ [(place, entry)]⟩
  | some (.file _), .file _ =>
      ⟨tree.entries.map fun other => if other.1 = place then (place, entry) else other⟩
  | _, _ => tree

/-- One step from a directory: an empty name or a dot stays, two dots go up. -/
def step (directory : Location) (name : String) : Location :=
  if name = "" || name = "." then directory
  else if name = ".." then directory.dropLast
  else directory ++ [name]

/-- The entry is added where some steps lead, after the directories on the way. -/
def addAlong (tree : Tree) (place : Location) : List String → Entry → Tree
  | [], entry => tree.add place entry
  | name :: names, entry => (tree.add place .directory).addAlong (step place name) names entry

/-- The tree with an entry at a place and all directories above it. -/
def insert (tree : Tree) (place : Location) (entry : Entry) : Tree :=
  tree.addAlong [] place entry

/-- Where a path starts: at the root or in the working directory. -/
def startOf (workingDirectory : Location) (path : String) : Location :=
  if path.toList.head? == some separator then [] else workingDirectory

/-- The tree with an entry where a path leads, and with all directories on the way. -/
def insertAt (tree : Tree) (workingDirectory : Location) (path : String) (entry : Entry) : Tree :=
  tree.addAlong (startOf workingDirectory path) (Text.parts separator path) entry

/-- The name of a place in the directory that holds it. -/
def nameIn? : Location → Location → Option String
  | [], [name] => some name
  | first :: directory, name :: place => if first = name then nameIn? directory place else none
  | _, _ => none

def names (tree : Tree) (directory : Location) : List String :=
  tree.entries.filterMap fun entry => nameIn? directory entry.1

/-- Every step but the last one has to lead to a directory, the last one to any entry. -/
def follow (tree : Tree) (place : Location) : List String → Except Obstacle Location
  | [] => if (tree.entry? place).isSome then .ok place else .error .missing
  | name :: names =>
      match tree.entry? place with
      | none => .error .missing
      | some (.file _) => .error .notDirectory
      | some .directory => tree.follow (step place name) names

/-- The place that a path leads to; a relative one starts in the working directory. -/
def resolve (tree : Tree) (workingDirectory : Location) (path : String) :
    Except Obstacle Location :=
  if path.isEmpty then .error .missing
  else tree.follow (startOf workingDirectory path) (Text.parts separator path)

/-- The directory that a path leads to. -/
def directoryAt (tree : Tree) (workingDirectory : Location) (path : String) :
    Except Obstacle Location :=
  match tree.resolve workingDirectory path with
  | .error obstacle => .error obstacle
  | .ok place => if tree.isDirectory place then .ok place else .error .notDirectory

/-- The text of the file that a path leads to. -/
def read (tree : Tree) (workingDirectory : Location) (path : String) : Except Obstacle String :=
  match tree.resolve workingDirectory path with
  | .error obstacle => .error obstacle
  | .ok place =>
      match tree.entry? place with
      | some (.file text) => .ok text
      | some .directory => .error .isDirectory
      | none => .error .missing

end Tree

end PathCatalog
