import PathCatalog.Template

namespace PathCatalog

namespace Segment

/-- The hint of a field's first occurrence. -/
def firstHint (name : String) : List Segment → Option Hint
  | [] => none
  | .literal _ :: rest => firstHint name rest
  | .field other hint :: rest => if other = name then hint else firstHint name rest

/-- The literal text of a template is all of it but the placeholders. -/
def literalText : List Segment → List Char
  | [] => []
  | .literal text :: rest => text.toList ++ literalText rest
  | .field _ _ :: rest => literalText rest

end Segment

namespace Template

/-- What a field accepts: its first occurrence decides. -/
def shapeOf (template : Template) (name : String) : Shape :=
  Shape.ofHint (Segment.firstHint name template.segments)

/-- What the fields accept, in the order of the fields. -/
def shapes (template : Template) : List Shape :=
  template.fields.map template.shapeOf

/-- An assignment fits a candidate when each field admits its value and the values make the name. -/
structure Fits (template : Template) (candidate : String) (values : List String) : Prop where
  complete : values.length = template.fields.length
  admitted : ∀ pair ∈ template.shapes.zip values, pair.1.admits pair.2.toList = true
  spelled : template.build (template.assign values) = .ok candidate

/-- Of two values of one field, the shorter is better without a class and the longer with one. -/
def Better (shape : Shape) (left right : String) : Prop :=
  match shape.width, shape.kind with
  | some _, _ => False
  | none, .any => left.length < right.length
  | none, _ => right.length < left.length

/-- The first field whose values differ decides which of two assignments is preferred. -/
inductive Preferred : List Shape → List String → List String → Prop where
  | here {shape : Shape} {shapes : List Shape} {left right : String} {lefts rights : List String}
      (better : Better shape left right) :
      Preferred (shape :: shapes) (left :: lefts) (right :: rights)
  | later {shape : Shape} {shapes : List Shape} {value : String} {lefts rights : List String}
      (rest : Preferred shapes lefts rights) :
      Preferred (shape :: shapes) (value :: lefts) (value :: rights)

/-- No value is better than itself. -/
theorem not_better_self (shape : Shape) (value : String) : ¬ Better shape value value := by
  unfold Better
  split <;> simp

/-- No assignment is preferred to itself. -/
theorem not_preferred_self (shapes : List Shape) (values : List String) :
    ¬ Preferred shapes values values := by
  induction shapes generalizing values with
  | nil => intro preferred; cases preferred
  | cons shape shapes ih =>
      intro preferred
      cases preferred with
      | here better => exact not_better_self shape _ better
      | later rest => exact ih _ rest

end Template

end PathCatalog
