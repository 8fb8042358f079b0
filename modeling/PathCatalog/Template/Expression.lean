import PathCatalog.Template.Plan

namespace PathCatalog.Expression

/-- The characters that have a meaning of their own in an expression. -/
def specials : List Char :=
  ['\\', '.', '+', '*', '?', '(', ')', '|', '[', ']', '{', '}', '^', '$', '#']

def quoted (text : String) : String :=
  String.ofList (text.toList.flatMap fun c => if specials.contains c then ['\\', c] else [c])

def ofClass : CharClass → String
  | .any => "."
  | .digits => "[0-9]"
  | .letters => "[a-zA-Z]"
  | .word => "[a-zA-Z0-9_]"
  | .nonword => "[^a-zA-Z0-9_]"
  | .nonspace => "\\S"
  | .hex => "[0-9a-fA-F]"

/-- A width is exact; without one, any characters are few and those of a class are many. -/
def ofHint : Option Hint → String
  | none => ".+?"
  | some ⟨_, some width, kind⟩ => ofClass kind ++ "\x7b" ++ toString width ++ "\x7d"
  | some ⟨_, none, .any⟩ => ".+?"
  | some ⟨_, none, kind⟩ => ofClass kind ++ "+"

/-- A field's first occurrence is a numbered group and a later one refers back to it. -/
def ofSegments (seen : List String) : List Segment → String
  | [] => ""
  | .literal text :: rest => quoted text ++ ofSegments seen rest
  | .field name hint :: rest =>
      match seen.idxOf? name with
      | some index => s!"\\k<f{index}>" ++ ofSegments seen rest
      | none =>
          let index := seen.length
          let body := ofHint hint
          s!"(?P<f{index}>{body})" ++ ofSegments (seen ++ [name]) rest

def source (segments : List Segment) : String :=
  "(?s)^" ++ ofSegments [] segments ++ "$"

def ofShape : Shape → String
  | ⟨some width, kind⟩ => ofClass kind ++ "\x7b" ++ toString width ++ "\x7d"
  | ⟨none, .any⟩ => ".+?"
  | ⟨none, kind⟩ => ofClass kind ++ "+"

/-- Demands as an expression; the captures are numbered from a group on. -/
def ofDemands (group : Nat) : List Demand → String
  | [] => ""
  | .text chars :: rest => quoted (String.ofList chars) ++ ofDemands group rest
  | .recall index :: rest => s!"\\k<f{index}>" ++ ofDemands group rest
  | .capture shape :: rest =>
      let body := ofShape shape
      s!"(?P<f{group}>{body})" ++ ofDemands (group + 1) rest

theorem ofHint_eq (hint : Option Hint) : ofHint hint = ofShape (Shape.ofHint hint) := by
  cases hint with
  | none => rfl
  | some hint =>
      obtain ⟨raw, width, kind⟩ := hint
      cases width with
      | some width => rfl
      | none => cases kind <;> rfl

theorem ofSegments_eq (seen : List String) (segments : List Segment) :
    ofSegments seen segments = ofDemands seen.length (Plan.demandsAfter seen segments) := by
  fun_induction Plan.demandsAfter seen segments with
  | case1 => rfl
  | case2 seen text rest ih => rw [ofSegments, ofDemands, String.ofList_toList, ih]
  | case3 seen name hint rest index known ih => rw [ofSegments, known, ofDemands, ih]
  | case4 seen name hint rest fresh ih =>
      rw [ofSegments, fresh, ofDemands, ofHint_eq, ih, List.length_append]
      rfl

/-- The expression says what the matcher demands of a candidate. -/
theorem source_eq (segments : List Segment) :
    source segments = "(?s)^" ++ ofDemands 0 (Plan.demands segments) ++ "$" := by
  rw [source, ofSegments_eq, Plan.demands, List.length_nil]

end PathCatalog.Expression
