import PathCatalog.Provider
import PathCatalog.Provider.Tree

namespace PathCatalog

/-- A tree as it is seen from a working directory, and the directory where relative patterns start.
-/
structure Host where
  tree : Tree
  workingDirectory : Location
  base : String := "."
  deriving Repr

namespace Tree

/-- The names in a directory that a component picks; wildcards pass over hidden names. -/
def picked (tree : Tree) (directory : Location) : Component → List String
  | .name text => if (tree.entry? (step directory text)).isSome then [text] else []
  | .wild segments => (tree.names directory).filter (Component.wild segments).picks

/-- A name that the last component picks is shown, with a separator if directories are asked for. -/
def shownLast (tree : Tree) (directoriesOnly : Bool) (directory : Location) (shown name : String) :
    List String :=
  if !directoriesOnly then [shown ++ name]
  else if tree.isDirectory (step directory name) then [shown ++ name ++ "/"]
  else []

/-- The matches of the components below a directory, where `shown` spells the way to it. -/
def walk (tree : Tree) (directoriesOnly : Bool) :
    List Component → Location → String → List String
  | [], _, _ => []
  | [last], directory, shown =>
      (tree.picked directory last).flatMap (tree.shownLast directoriesOnly directory shown)
  | component :: next :: rest, directory, shown =>
      if component = .name "" then
        tree.walk directoriesOnly (next :: rest) directory (shown ++ "/")
      else
        (tree.picked directory component).flatMap fun name =>
          if tree.isDirectory (step directory name) then
            tree.walk directoriesOnly (next :: rest) (step directory name) (shown ++ name ++ "/")
          else []

end Tree

namespace Host

/-- Nothing is found below a base that is no directory; listing it is noted, or fails. -/
def walkNowhere (base : String) (obstacle : Obstacle) :
    List Component → Logged Failure (List String)
  | .wild _ :: _ =>
      match obstacle with
      | .missing => do
          let reason := obstacle.reason
          Logged.note .debug s!"Skipping unreadable directory {base}: {reason}"
          return []
      | _ => .fail .unlistable
  | _ => .done []

/-- Where a relative pattern starts; an empty base cannot be listed, but plain names are found. -/
def start (host : Host) (components : List Component) : Except Obstacle Location :=
  match host.base.isEmpty, components with
  | true, .name _ :: _ => .ok host.workingDirectory
  | _, _ => host.tree.directoryAt host.workingDirectory host.base

/-- The matches of a pattern, spelled as the pattern is. -/
def matching (host : Host) (pattern : String) : Logged Failure (List String) :=
  let directoriesOnly := 1 < pattern.length && endsInSeparator pattern
  let all := Glob.parse pattern
  if pattern.toList.head? == some separator then
    let components := if directoriesOnly then all.tail.dropLast else all.tail
    .done (host.tree.walk directoriesOnly components [] "/")
  else
    let components := if directoriesOnly then all.dropLast else all
    match host.start components with
    | .ok directory => .done (host.tree.walk directoriesOnly components directory "")
    | .error obstacle => walkNowhere host.base obstacle components

/-- The provider over the tree. -/
def provider (host : Host) : Provider := fun pattern =>
  if pattern.isEmpty then .done []
  else do
    let found ← host.matching pattern
    let count := found.length
    Logged.note .debug s!"Host glob {pattern} matched {count} path(s)"
    return found

end Host

end PathCatalog
