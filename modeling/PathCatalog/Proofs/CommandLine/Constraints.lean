import PathCatalog.CommandLine.Assignment
import PathCatalog.Proofs.Entries
import PathCatalog.Proofs.Outcome
import PathCatalog.Proofs.Text.Split

namespace PathCatalog

/-- A list of one value is that value alone; other candidates stay as they are. -/
def Candidates.simplest : Candidates → Candidates
  | .list [value] => .one value
  | candidates => candidates

/-- The query with every list of one value as that value alone. -/
def Query.simplest (query : Query) : Query where
  pairs := query.pairs.map (Prod.map id Candidates.simplest)
  distinct := by
    rw [List.map_map]
    exact query.distinct

namespace CommandLine

/-- A name and its values as one argument. -/
def written (name : String) (values : List String) : String :=
  name ++ "=" ++ Text.joined "," values

/-- A name and values that an argument can carry. -/
structure Writable (name : String) (values : List String) : Prop where
  named : name ≠ ""
  whole : '=' ∉ name.toList
  some : values ≠ []
  parts : ∀ value ∈ values, ',' ∉ value.toList

instance (name : String) (values : List String) : Decidable (Writable name values) :=
  decidable_of_iff
    (name ≠ "" ∧ '=' ∉ name.toList ∧ values ≠ [] ∧ ∀ value ∈ values, ',' ∉ value.toList)
    ⟨fun holds => ⟨holds.1, holds.2.1, holds.2.2.1, holds.2.2.2⟩,
      fun writable => ⟨writable.named, writable.whole, writable.some, writable.parts⟩⟩

section Single

variable {argument name : String} {values : List String}

theorem toList_written : (written name values).toList =
    name.toList ++ '=' :: (Text.joined "," values).toList := by
  rw [written, String.toList_append, String.toList_append, List.append_assoc]
  rfl

/-- An argument is read as a name with values exactly when it is what they are written as. -/
theorem parseAssignment_eq_ok_iff : parseAssignment argument = .ok (name, values) ↔
    argument = written name values ∧ Writable name values := by
  rw [parseAssignment]
  constructor
  · intro read
    cases cut : Text.cut? '=' argument.toList with
    | none =>
        rw [cut] at read
        cases read
    | some halves =>
        obtain ⟨front, rest⟩ := halves
        obtain ⟨absent, whole⟩ := Text.cut?_eq_some_iff.mp cut
        rw [cut] at read
        dsimp only at read
        split at read
        next => cases read
        next filled =>
          cases read
          have cutUp : (rest.splitOn ',').map String.ofList =
              Text.parts ',' (String.ofList rest) := by
            rw [Text.parts, String.toList_ofList]
          have back : Text.joined "," (Text.parts ',' (String.ofList rest)) = String.ofList rest :=
            Text.joined_parts ',' _
          rw [cutUp]
          constructor
          · rw [← String.toList_inj, toList_written, back, String.toList_ofList,
              String.toList_ofList, whole]
          · constructor
            case named =>
              rwa [Ne, ← String.toList_eq_nil_iff, String.toList_ofList, ← List.isEmpty_iff]
            case whole => rwa [String.toList_ofList]
            case some => exact Text.parts_ne_nil _
            case parts => exact fun value => Text.not_mem_of_mem_parts
  · intro holds
    obtain ⟨rfl, named, whole, some, parts⟩ := holds
    have cut := Text.cut?_append whole (Text.joined "," values).toList
    have back : Text.parts ',' (Text.joined "," values) = values := Text.parts_joined parts some
    have filled : ¬name.toList.isEmpty = true := by
      rwa [List.isEmpty_iff, String.toList_eq_nil_iff]
    rw [toList_written, cut]
    dsimp only
    rw [if_neg filled, String.ofList_toList, ← Text.parts, back]

end Single

theorem candidatesOf_values : candidatesOf ∘ Candidates.values = Candidates.simplest := by
  funext candidates
  match candidates with
  | .one _ | .list [] | .list [_] | .list (_ :: _ :: _) => rfl

section Several

variable {arguments : List String} {query result : Query}

/-- The assignments that are read are set one after the other. -/
theorem queryFrom_eq_ok_iff : queryFrom query arguments = .ok result ↔
    ∃ assignments, List.Forall₂ (fun argument assignment =>
        parseAssignment argument = .ok assignment) arguments assignments ∧
      (assignments.map (Prod.map id candidatesOf)).foldl
        (fun entries pair => entries.set pair.1 pair.2) query = result := by
  induction arguments generalizing query with
  | nil =>
      simp only [queryFrom, List.forall₂_nil_left_iff, exists_eq_left, List.map_nil,
        List.foldl_nil, Except.ok.injEq]
  | cons argument rest ih =>
      rw [queryFrom, bind_eq_ok]
      constructor
      · intro read
        obtain ⟨assignment, here, later⟩ := read
        obtain ⟨assignments, others, same⟩ := ih.mp later
        exact ⟨assignment :: assignments, .cons here others, same⟩
      · intro holds
        obtain ⟨_, each, same⟩ := holds
        obtain ⟨assignment, assignments, here, others, rfl⟩ := List.forall₂_cons_left_iff.mp each
        exact ⟨assignment, here, ih.mpr ⟨assignments, others, same⟩⟩

/-- A query is read from its assignments: the places are the first, the values the last ones. -/
theorem parseQuery_eq_ok_iff : parseQuery arguments = .ok query ↔
    ∃ assignments, List.Forall₂ (fun argument assignment =>
        parseAssignment argument = .ok assignment) arguments assignments ∧
      query.names = (assignments.map Prod.fst).eraseDups ∧
      ∀ name, query.get? name = (assignments.reverse.lookup name).map candidatesOf := by
  rw [parseQuery, queryFrom_eq_ok_iff]
  refine exists_congr fun assignments => and_congr_right fun _ => ?_
  have places : (assignments.map (Prod.map id candidatesOf)).map Prod.fst =
      assignments.map Prod.fst := by
    rw [List.map_map]
    rfl
  have settled : Entries.ofList (assignments.map (Prod.map id candidatesOf)) = query ↔ _ :=
    Entries.ofList_eq_iff
  simp only [places, ← List.map_reverse, lookup_map_values] at settled
  exact settled

/-- Distinct constraints that arguments can carry are read back, each in its place. -/
theorem parseQuery_written (writable : ∀ pair ∈ query.pairs, Writable pair.1 pair.2.values) :
    parseQuery (query.pairs.map fun pair => written pair.1 pair.2.values) =
      .ok query.simplest := by
  rw [parseQuery, queryFrom_eq_ok_iff]
  refine ⟨query.pairs.map (Prod.map id Candidates.values), ?_, ?_⟩
  · refine List.forall₂_map_left_iff.mpr (List.forall₂_map_right_iff.mpr ?_)
    exact List.forall₂_same.mpr fun pair member =>
      parseAssignment_eq_ok_iff.mpr ⟨rfl, writable pair member⟩
  · have read : (query.pairs.map (Prod.map id Candidates.values)).map (Prod.map id candidatesOf) =
        query.simplest.pairs := by
      rw [List.map_map, Prod.map_comp_map, Function.comp_id, candidatesOf_values]
      rfl
    rw [read]
    exact Entries.ext (Entries.pairs_ofList query.simplest.distinct)

end Several

/-- Arguments are read as exactly the queries that they write down; of a repeated name the first
place and the last values count. -/
theorem parseQuery_exact :
    (∀ argument name values, parseAssignment argument = .ok (name, values) ↔
      argument = written name values ∧ Writable name values) ∧
      (∀ query : Query, (∀ pair ∈ query.pairs, Writable pair.1 pair.2.values) →
        parseQuery (query.pairs.map fun pair => written pair.1 pair.2.values) =
          .ok query.simplest) ∧
      ∀ arguments query, parseQuery arguments = .ok query ↔
        ∃ assignments, List.Forall₂ (fun argument assignment =>
            parseAssignment argument = .ok assignment) arguments assignments ∧
          query.names = (assignments.map Prod.fst).eraseDups ∧
          ∀ name, query.get? name = (assignments.reverse.lookup name).map candidatesOf :=
  ⟨fun _ _ _ => parseAssignment_eq_ok_iff, fun _ => parseQuery_written,
    fun _ _ => parseQuery_eq_ok_iff⟩

/-- An empty value and one with an equals sign are read back, and a name that comes twice is set. -/
theorem parseQuery_exact_repeated :
    parseQuery ["exp=,a=b", "model=m"] =
        .ok (Query.simplest (.ofList [("exp", .list ["", "a=b"]), ("model", .list ["m"])])) ∧
      parseQuery ["exp=h", "model=m", "exp=,s"] =
        .ok (.ofList [("exp", .list ["", "s"]), ("model", .one "m")]) := by
  refine ⟨parseQuery_exact.2.1 (.ofList [("exp", .list ["", "a=b"]), ("model", .list ["m"])])
    (by decide), ?_⟩
  refine (parseQuery_exact.2.2 _ _).mpr
    ⟨[("exp", ["h"]), ("model", ["m"]), ("exp", ["", "s"])], ?_, by decide, ?_⟩
  · exact .cons ((parseQuery_exact.1 _ _ _).mpr (by decide)) <|
      .cons ((parseQuery_exact.1 _ _ _).mpr (by decide)) <|
      .cons ((parseQuery_exact.1 _ _ _).mpr (by decide)) .nil
  · intro name
    have set : (Entries.ofList [("exp", .list ["", "s"]), ("model", .one "m")] : Query) =
        .ofList [("exp", .one "h"), ("model", .one "m"), ("exp", .list ["", "s"])] :=
      Entries.ext (by decide)
    rw [set, Entries.get?_ofList]
    exact lookup_map_values candidatesOf [("exp", ["", "s"]), ("model", ["m"]), ("exp", ["h"])] name

end CommandLine

end PathCatalog
