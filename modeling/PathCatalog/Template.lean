import PathCatalog.Entries
import PathCatalog.Event
import PathCatalog.Template.Plan

namespace PathCatalog

structure Template where
  pattern : String
  segments : List Segment
  parsed : Segment.parse pattern = .ok segments

namespace Template

/-- A template is compiled when its text can be read and its widths are not too large. -/
def compile (pattern : String) : Except Failure Template :=
  match parsed : Segment.parse pattern with
  | .error failure => .error failure
  | .ok segments =>
      if Plan.largestWidth (Plan.demands segments) ≤ Plan.widthLimit then
        .ok ⟨pattern, segments, parsed⟩
      else .error (.engine .oversizedPattern)

/-- The distinct fields, in the order in which they first occur. -/
def fields (template : Template) : List String :=
  Segment.names template.segments

def construction (template : Template) : String :=
  Segment.construction template.segments

/-- Values take the places of their fields; `pattern` is named when one is missing. -/
def buildFrom (pattern : String) (values : FieldMap) : List Segment → Except Failure String
  | [] => .ok ""
  | .literal text :: rest => (buildFrom pattern values rest).map (text ++ ·)
  | .field name _ :: rest =>
      match values.get? name with
      | some value => (buildFrom pattern values rest).map (value ++ ·)
      | none => .error (.missingField name pattern)

/-- The fields with their values, which stand in the order of the fields. -/
def assign (template : Template) (values : List String) : FieldMap :=
  Entries.ofList (template.fields.zip values)

/-- The name for the given values; values of other fields do not matter, nor do hints. -/
def build (template : Template) (values : FieldMap) : Except Failure String :=
  buildFrom template.pattern values template.segments

/-- The values of the preferred match; going back too often is no match, too many pending branches
are a failure. -/
def captures (template : Template) (candidate : String) :
    Logged Failure (Option (List String)) :=
  match Plan.attempt (Plan.demands template.segments) candidate.toList Plan.failureLimit with
  | .found spans => .done (some (spans.map fun span => String.ofList span.value))
  | .refused _ => .done none
  | .exhausted => do
      Logged.note .debug s!"Backtrack limit exceeded while matching {candidate}"
      return none
  | .overflowed => Logged.fail (.engine .tooManyBranches)

/-- Whether the whole candidate matches. -/
def isMatch (template : Template) (candidate : String) : Logged Failure Bool := do
  let values ← template.captures candidate
  return values.isSome

/-- The values of the fields in a path, in the order of the fields. -/
def parseValues (template : Template) (path : String) : Logged Failure (List String) := do
  match ← template.captures path with
  | some values => return values
  | none => Logged.fail (.unreadablePath path template.pattern)

/-- The fields of a path with their values. -/
def parse (template : Template) (path : String) : Logged Failure FieldMap := do
  let values ← template.parseValues path
  return template.assign values

end Template

end PathCatalog
