import PathCatalog.Query

namespace PathCatalog.CommandLine

inductive AssignmentFault where
  | noEqualsSign (argument : String)
  | noName (argument : String)
  deriving DecidableEq, Repr

def AssignmentFault.message : AssignmentFault → String
  | .noEqualsSign argument => s!"Expected KEY=VALUE, got '{argument}'"
  | .noName argument => s!"Missing key in '{argument}'"

/-- The name stands before the first equals sign, the values after it between commas. -/
def parseAssignment (argument : String) : Except AssignmentFault (String × List String) :=
  match Text.cut? '=' argument.toList with
  | none => .error (.noEqualsSign argument)
  | some (name, values) =>
      if name.isEmpty then .error (.noName argument)
      else .ok (String.ofList name, (values.splitOn ',').map String.ofList)

/-- A single value is one candidate, several are a list. -/
def candidatesOf : List String → Candidates
  | [value] => .one value
  | values => .list values

/-- The constraints of some assignments after others; a repeated name takes the last values. -/
def queryFrom (query : Query) : List String → Except AssignmentFault Query
  | [] => .ok query
  | argument :: rest => do
      let (name, values) ← parseAssignment argument
      queryFrom (query.set name (candidatesOf values)) rest

def parseQuery (arguments : List String) : Except AssignmentFault Query :=
  queryFrom Entries.empty arguments

end PathCatalog.CommandLine
