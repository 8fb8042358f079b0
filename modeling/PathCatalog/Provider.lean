import PathCatalog.Event
import PathCatalog.Failure
import PathCatalog.Glob

namespace PathCatalog

/-- A provider answers a search pattern with literal paths, in an order that does not matter. -/
abbrev Provider := String → Logged Failure (List String)

namespace Provider

/-- The directory of a path with a separator at its end; a path without one lies in the root. -/
def parent (path : String) : String :=
  String.ofList ((path.toList.reverse.dropWhile (· != separator)).tail.reverse ++ [separator])

/-- The texts without those that have already been seen. -/
def unseen (seen : List String) : List String → List String
  | [] => []
  | text :: rest =>
      if seen.contains text then unseen seen rest else text :: unseen (text :: seen) rest

/-- What a pattern is compared with: the paths, or the distinct directories that hold them. -/
def candidates (paths : List String) (pattern : String) : List String :=
  if endsInSeparator pattern then unseen [] (paths.map parent) else paths

/-- The provider over a fixed list of paths. -/
def listed (paths : List String) : Provider := fun pattern =>
  if pattern.isEmpty then .done []
  else .done ((candidates paths pattern).filter (Glob.parse pattern).accepts)

end Provider

end PathCatalog
