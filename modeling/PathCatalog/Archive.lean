import PathCatalog.Finder

namespace PathCatalog

/-- A non-empty directory pattern ends in exactly one separator. -/
def directoryPattern (pattern : String) : String :=
  if pattern.isEmpty then ""
  else
    String.ofList ((pattern.toList.reverse.dropWhile (· == separator)).reverse ++ [separator])

/-- The directory template, the file template and the template of both together. -/
structure Archive where
  path : Template
  file : Template
  full : Template
  joined : full.pattern = path.pattern ++ file.pattern

namespace Archive

/-- Compiling a text keeps it as the template's pattern. -/
theorem pattern_of_compile {text : String} {template : Template}
    (compiled : Template.compile text = .ok template) : template.pattern = text := by
  unfold Template.compile at compiled
  split at compiled
  · cases compiled
  · split at compiled
    · cases compiled
      rfl
    · cases compiled

/-- The archive of two patterns; the one for files may not hold a separator. -/
def compile (pathPattern filePattern : String) : Except Failure Archive :=
  if filePattern.toList.contains separator then
    .error (.invalidTemplate filePattern .separatorInFileName)
  else
    let directory := directoryPattern pathPattern
    match pathCompiled : Template.compile directory,
        fileCompiled : Template.compile filePattern,
        fullCompiled : Template.compile (directory ++ filePattern) with
    | .ok path, .ok file, .ok full =>
        .ok ⟨path, file, full, by
          rw [pattern_of_compile pathCompiled, pattern_of_compile fileCompiled,
            pattern_of_compile fullCompiled]⟩
    | .error failure, _, _ => .error failure
    | _, .error failure, _ => .error failure
    | _, _, .error failure => .error failure

/-- The fields of the whole, in the order in which they first occur. -/
def keys (archive : Archive) : List String :=
  archive.full.fields

def pathName (archive : Archive) (values : FieldMap) : Except Failure String :=
  archive.path.build values

def fileName (archive : Archive) (values : FieldMap) : Except Failure String :=
  archive.file.build values

def fullName (archive : Archive) (values : FieldMap) : Except Failure String :=
  archive.full.build values

/-- A found directory stands for the files in it. -/
def directorySuffix : String := "*"

def findPaths (archive : Archive) (provider : Provider) (query : Query) (options : FindOptions) :
    Logged Failure Table :=
  Finder.find ⟨archive.path, directorySuffix, provider⟩ query options

def findFiles (archive : Archive) (provider : Provider) (query : Query) (options : FindOptions) :
    Logged Failure Table :=
  Finder.find ⟨archive.full, "", provider⟩ query options

/-- The patterns and the sorted fields. -/
def display (archive : Archive) : String :=
  let path := archive.path.pattern
  let file := archive.file.pattern
  let sorted := archive.keys.mergeSort fun left right =>
    Text.comparePlain left.toList right.toList != .gt
  let keys := Text.joined "', '" sorted
  s!"<FileFinder>\npath_pattern: '{path}'\nfile_pattern: '{file}'\n\nkeys: '{keys}'"

end Archive

end PathCatalog
