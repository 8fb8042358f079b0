import PathCatalog.CommandLine.Report

namespace PathCatalog.Disk

/-- The text that leads to a place from the root. -/
def pathTo (place : Location) : String :=
  "/" ++ Text.joined "/" place

/-- The tree with what lies at a place; the text of a file is read only if it is asked for. -/
def look (withText : Bool) (tree : Tree) (place : Location) : IO Tree := do
  let path := (← IO.currentDir) / pathTo place
  if (tree.entry? place).isSome then return tree
  else if ← path.isDir then return tree.insert place .directory
  else if ← path.pathExists then
    let text ← if withText then IO.FS.readFile path else pure ""
    return tree.insert place (.file text)
  else return tree

/-- The names in a directory; one that cannot be listed has none. -/
def names (directory : Location) : IO (List String) := do
  let path := (← IO.currentDir) / pathTo directory
  try
    let entries ← path.readDir
    return entries.toList.map fun entry => entry.fileName
  catch _ => return []

/-- The tree with all that lies on the way of a path, and with the text of its file. -/
def along : List String → Location → Tree → IO Tree
  | [], _, tree => return tree
  | name :: rest, place, tree => do
      let next := Tree.step place name
      along rest next (← look true tree next)

/-- The tree with all that a search pattern meets below a directory. -/
def below : List Component → Location → Tree → IO Tree
  | [], _, tree => return tree
  | component :: rest, directory, tree => do
      let met ← match component with
        | .name text => pure [text]
        | .wild _ => names directory
      let grown ← met.foldlM (fun grown name => look false grown (Tree.step directory name)) tree
      (grown.picked directory component).foldlM (fun grown name =>
        let next := Tree.step directory name
        if grown.isDirectory next then below rest next grown else pure grown) grown

/-- The disk as the working directory and the configuration's file show it. -/
def hostFor (selection : CommandLine.Selection) : IO Host := do
  let here := (Text.parts separator (← IO.currentDir).toString).filter fun name => !name.isEmpty
  let tree := Tree.empty.insert here .directory
  match selection.config with
  | none => return ⟨tree, here, "."⟩
  | some path =>
      let seen ← along (Text.parts separator path) (Tree.startOf here path) tree
      return ⟨seen, here, "."⟩

/-- The disk as a request sees it. -/
def hostOf (request : CommandLine.Request) : IO Host := do
  let host ← hostFor request.selection
  match request with
  | .find search =>
      let tree ← (search.patterns host).foldlM (fun tree pattern =>
        below (Glob.parse pattern) (Tree.startOf host.workingDirectory pattern) tree) host.tree
      return { host with tree := tree }
  | _ => return host

end PathCatalog.Disk

/-- Prints the report of the command that the arguments ask for, and ends with its code. -/
def main (arguments : List String) : IO UInt32 := do
  let host ← match (PathCatalog.CommandLine.readRequest arguments).outcome with
    | .ok request => PathCatalog.Disk.hostOf request
    | .error _ => PathCatalog.Disk.hostFor {}
  let setting := PathCatalog.LogSetting.parse ((← IO.getEnv "PATH_CATALOG_LOG").getD "")
  let report := PathCatalog.CommandLine.report setting (PathCatalog.CommandLine.run host arguments)
  report.remarks.forM fun line => IO.eprintln line
  report.answer.forM fun line => IO.println line
  return report.code
