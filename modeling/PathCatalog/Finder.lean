import PathCatalog.Policy
import PathCatalog.Provider
import PathCatalog.Table
import PathCatalog.Text.Natural
import PathCatalog.Text.Quoted

namespace PathCatalog

/-- The row of a path that the template matches; another path is handled as the policy says. -/
def parsePath (template : Template) (suffix : String) (policy : OnParseError) (path : String) :
    Logged Failure (Option Row) := do
  match ← template.captures path with
  | some values => return some ⟨path ++ suffix, values⟩
  | none =>
      let failure := Failure.unreadablePath path template.pattern
      match policy with
      | .raise => Logged.fail failure
      | .warn => do
          Logged.note .warn failure.message
          return none
      | .ignore => do
          Logged.note .debug s!"Skipping unparsable path {path}"
          return none

/-- The rows of the paths that the template matches, in the order of the paths. -/
def parsePaths (template : Template) (suffix : String) (policy : OnParseError)
    (paths : List String) : Logged Failure (List Row) := do
  let rows ← Logged.each (parsePath template suffix policy) paths
  return rows.filterMap id

/-- A template bound to a provider; the suffix follows the path of every row. -/
structure Finder where
  template : Template
  suffix : String
  provider : Provider

namespace Finder

/-- The provider's paths for one search pattern, in natural order. -/
def collectOne (finder : Finder) (search : String) : Logged Failure (List String) := do
  let found ← finder.provider search
  let paths := Text.naturalSort found
  let count := paths.length
  Logged.note .debug s!"Collected {count} path(s) for {search}"
  return paths

/-- The provider's paths for all search patterns, pattern by pattern. -/
def collect (finder : Finder) (patterns : List String) : Logged Failure (List String) := do
  let paths ← Logged.each finder.collectOne patterns
  return paths.flatten

/-- Without any path the search fails or ends in a table without rows, as the policy says. -/
def nothing (finder : Finder) (policy : OnEmpty) (patterns : List String) :
    Logged Failure Table :=
  let failure := Failure.nothingFound patterns
  let empty := Table.new finder.template.fields
  match policy with
  | .raise => .fail failure
  | .warn => do
      Logged.note .warn failure.message
      return empty
  | .allow => do
      let pattern := finder.template.pattern
      Logged.note .debug s!"No paths found for {pattern}"
      return empty

/-- The table of some collected paths. -/
def tabulate (finder : Finder) (policy : OnParseError) (paths : List String) :
    Logged Failure Table := do
  let rows ← parsePaths finder.template finder.suffix policy paths
  let parsed := rows.length
  let collected := paths.length
  Logged.note .debug s!"Parsed {parsed} of {collected} path(s)"
  let table ← Logged.ofExcept (Table.fromRows finder.template.fields rows)
  Logged.ofExcept table.ensureUnique
  let count := table.size
  let pattern := finder.template.pattern
  Logged.note .info s!"Found {count} path(s) for {pattern}"
  return table

/-- Every path that the query stands for, with its field values. -/
def find (finder : Finder) (query : Query) (options : FindOptions) : Logged Failure Table := do
  let patterns ← Logged.ofExcept (query.expand finder.template)
  let pattern := finder.template.pattern
  let count := patterns.length
  Logged.note .debug s!"Expanded {pattern} into {count} search pattern(s)"
  let paths ← finder.collect patterns
  if paths.isEmpty then finder.nothing options.onEmpty patterns
  else finder.tabulate options.onParseError paths

def describe (finder : Finder) : String :=
  "Finder \x7b pattern: " ++ Text.quoted finder.template.pattern ++
    ", suffix: " ++ Text.quoted finder.suffix ++ ", .. \x7d"

end Finder

end PathCatalog
