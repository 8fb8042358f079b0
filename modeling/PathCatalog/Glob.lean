import PathCatalog.Text.Split

namespace PathCatalog

/-- The character between the components of a path. -/
def separator : Char := '/'

/-- One component of a search pattern: a plain name, or the texts between wildcards. -/
inductive Component where
  | name (text : String)
  | wild (segments : List String)
  deriving DecidableEq, Repr

namespace Component

/-- A component with a wildcard is cut at each of them. -/
def parse (text : String) : Component :=
  if text.toList.contains '*' then .wild (Text.parts '*' text) else .name text

def isWild : Component → Bool
  | .name _ => false
  | .wild _ => true

/-- Only a component that itself starts with a dot stands for names that do. -/
def matchesHidden : Component → Bool
  | .name text => text.toList.head? == some '.'
  | .wild segments => (segments.headD "").toList.head? == some '.'

/-- The text after the leftmost occurrence of a segment. -/
def afterFirst (segment : List Char) : List Char → Option (List Char)
  | [] => if segment.isEmpty then some [] else none
  | c :: rest =>
      match segment.isPrefixOf? (c :: rest) with
      | some after => some after
      | none => afterFirst segment rest

/-- The segments occur in this order without overlap; each is looked for as far left as it can. -/
def inOrder : List (List Char) → List Char → Bool
  | [], _ => true
  | segment :: rest, text =>
      match afterFirst segment text with
      | some after => inOrder rest after
      | none => false

/-- The first segment starts the text, the last one ends it, the others lie between in order. -/
def segmentsMatch (segments : List (List Char)) (text : List Char) : Bool :=
  match segments with
  | [] => text.isEmpty
  | [only] => text == only
  | first :: second :: rest =>
      let last := (second :: rest).getLast (by simp)
      let inner := (second :: rest).dropLast
      first.length + last.length ≤ text.length &&
        first.isPrefixOf text && last.isSuffixOf text &&
        inOrder inner ((text.drop first.length).take (text.length - first.length - last.length))

/-- Whether the component stands for the name. -/
def accepts (component : Component) (text : String) : Bool :=
  match component with
  | .name plain => text == plain
  | .wild segments => segmentsMatch (segments.map String.toList) text.toList

/-- Whether the component picks the name from a listing; wildcards pass over hidden names. -/
def picks (component : Component) (name : String) : Bool :=
  component.accepts name &&
    (!component.isWild || component.matchesHidden || name.toList.head? != some '.')

end Component

/-- A search pattern, component by component. -/
abbrev Glob := List Component

namespace Glob

/-- A separator at an end of the pattern leaves an empty component there. -/
def parse (pattern : String) : Glob :=
  (Text.parts separator pattern).map Component.parse

/-- Components accept names one by one, and there are as many of both. -/
def acceptsAll : List Component → List String → Bool
  | [], [] => true
  | component :: glob, name :: names => component.accepts name && acceptsAll glob names
  | _, _ => false

/-- Whether the pattern stands for the candidate. -/
def accepts (glob : Glob) (candidate : String) : Bool :=
  acceptsAll glob (Text.parts separator candidate)

/-- The texts that a pattern stands for: each wildcard gives way to any text without a separator. -/
inductive Covers : List Char → List Char → Prop where
  | nil : Covers [] []
  | char {c : Char} {pattern text : List Char} (plain : c ≠ '*') (rest : Covers pattern text) :
      Covers (c :: pattern) (c :: text)
  | wild {pattern text : List Char} (filling : List Char) (inside : separator ∉ filling)
      (rest : Covers pattern text) : Covers ('*' :: pattern) (filling ++ text)

/-- A pattern without wildcards stands for itself. -/
theorem covers_self {pattern : List Char} (plain : '*' ∉ pattern) : Covers pattern pattern := by
  induction pattern with
  | nil => exact .nil
  | cons c rest ih =>
      rw [List.mem_cons, not_or] at plain
      exact .char (Ne.symm plain.1) (ih plain.2)

end Glob

/-- Whether a pattern asks for directories. -/
def endsInSeparator (pattern : String) : Bool :=
  pattern.toList.getLast? == some separator

end PathCatalog
