import PathCatalog.Template

namespace PathCatalog

/-- The accepted values of a field: a single one, or any of a list. -/
inductive Candidates where
  | one (value : String)
  | list (values : List String)
  deriving DecidableEq, Repr

def Candidates.values : Candidates → List String
  | .one value => [value]
  | .list values => values

def Candidates.accepts (candidates : Candidates) (value : String) : Bool :=
  candidates.values.contains value

/-- Constraints on different fields hold together; of one field's candidates any will do. -/
abbrev Query := Entries Candidates

/-- The text that stands for a field without a constraint. -/
def wildcard : String := "*"

namespace Query

/-- Every choice of one candidate per field; the last field varies fastest. -/
def choices : List (String × List String) → List (List (String × String))
  | [] => [[]]
  | (name, values) :: rest =>
      let others := choices rest
      values.flatMap fun value => others.map ((name, value) :: ·)

/-- The fields of a query with their candidates. -/
def lists (query : Query) : List (String × List String) :=
  query.pairs.map fun pair => (pair.1, pair.2.values)

/-- Every way to take one candidate per field, with the fields of the query in order. -/
def product (query : Query) : List FieldMap :=
  (choices (lists query)).map Entries.ofList

/-- The numbers of candidates, field by field. -/
def counts (query : Query) : List Nat :=
  query.pairs.map fun pair => pair.2.values.length

/-- Combinations are counted in a machine word, which holds the numbers below this bound. -/
def countBound : Nat := UInt64.size

/-- The number of combinations, as far as a machine word holds it. -/
def cardinality (query : Query) : Nat :=
  query.counts.foldr (· * ·) 1 % countBound

/-- The bytes that a list of combinations sets aside for one of them. -/
def combinationBytes : Nat := 72

/-- No list takes as many bytes, half of what a machine word counts. -/
def memoryBound : Nat := 9223372036854775808

/-- Room is set aside for all combinations, unless some field has no candidate. -/
def listable (query : Query) : Bool :=
  query.counts.contains 0 || query.cardinality * combinationBytes < memoryBound

/-- Every combination of one candidate per field; their list has to fit before it is made. -/
def combinations (query : Query) : Except Failure (List FieldMap) :=
  if query.listable then .ok query.product else .error .tooManyCombinations

/-- Every constrained field has to be one of the fields. -/
def validateFields (query : Query) (fields : List String) (context : String) :
    Except Failure Unit :=
  match query.names.find? fun name => !fields.contains name with
  | some name => .error (.misfit (.notAField name context fields))
  | none => .ok ()

/-- The values that a combination gives to all fields, the wildcard to those it leaves open. -/
def filled (fields : List String) (combination : FieldMap) : FieldMap :=
  Entries.ofList (fields.map fun name => (name, (combination.get? name).getD wildcard))

/-- The first failure ends the list of names. -/
def buildEach (template : Template) : List FieldMap → Except Failure (List String)
  | [] => .ok []
  | combination :: rest => do
      let name ← template.build (filled template.fields combination)
      let names ← buildEach template rest
      return name :: names

/-- One search pattern per combination, in order. -/
def expand (template : Template) (query : Query) : Except Failure (List String) := do
  query.validateFields template.fields template.pattern
  let combinations ← query.combinations
  buildEach template combinations

end Query

end PathCatalog
