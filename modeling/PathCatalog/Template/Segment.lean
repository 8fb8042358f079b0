import PathCatalog.Failure
import PathCatalog.Template.Hint

namespace PathCatalog

inductive Segment where
  | literal (text : String)
  | field (name : String) (hint : Option Hint)
  deriving DecidableEq, Repr

namespace Segment

/-- Names that placeholders may not have, because they name the controls of a search. -/
def reservedNames : List String :=
  ["keys", "on_parse_error", "on_empty", "_allow_empty"]

inductive Piece where
  | char (c : Char)
  | field (name : String) (hint : Option Hint)
  deriving DecidableEq, Repr

/-- The hint after the colon; an empty one is none. -/
def readHint (name spec : String) : Except TemplateFault (Option Hint) :=
  if spec.isEmpty then .ok none
  else match Hint.parse? spec with
    | some hint => .ok (some hint)
    | none => .error (.badHint spec name)

/-- A placeholder's name is checked before its hint. -/
def readField (name : String) (spec : String) : Except TemplateFault Piece :=
  if name.isEmpty then .error .anonymous
  else if !name.toList.all CharClass.isWordChar then .error (.badName name)
  else if reservedNames.contains name then .error (.reservedName name)
  else (readHint name spec).map (.field name)

/-- What stands between the braces of a placeholder: a name, then a hint after the first colon. -/
def readPlaceholder (inner : List Char) : Except TemplateFault Piece :=
  match Text.cut? ':' inner with
  | some (name, spec) => readField (String.ofList name) (String.ofList spec)
  | none => readField (String.ofList inner) ""

/-- The pieces of a template from a byte offset on; `opened` holds the offset of an open brace and
the characters since, last one first. -/
def scan (offset : Nat) (opened : Option (Nat × List Char)) :
    List Char → Except TemplateFault (List Piece)
  | [] =>
      match opened with
      | none => .ok []
      | some (start, _) => .error (.unbalanced '{' start)
  | c :: rest =>
      match opened with
      | some (start, inner) =>
          if c = '}' then do
            let piece ← readPlaceholder inner.reverse
            let pieces ← scan (offset + 1) none rest
            return piece :: pieces
          else if c = '{' then .error (.unbalanced '{' start)
          else scan (offset + c.utf8Size) (some (start, c :: inner)) rest
      | none =>
          if c = '{' then
            match rest with
            | '{' :: more => (scan (offset + 2) none more).map (Piece.char '{' :: ·)
            | others => scan (offset + 1) (some (offset, [])) others
          else if c = '}' then
            match rest with
            | '}' :: more => (scan (offset + 2) none more).map (Piece.char '}' :: ·)
            | _ => .error (.unbalanced '}' offset)
          else (scan (offset + c.utf8Size) none rest).map (Piece.char c :: ·)

/-- Neighbouring characters make one literal. -/
def gather : List Piece → List Segment
  | [] => []
  | .field name hint :: rest => .field name hint :: gather rest
  | .char c :: rest =>
      match gather rest with
      | .literal text :: more => .literal (String.singleton c ++ text) :: more
      | others => .literal (String.singleton c) :: others

def parse (template : String) : Except Failure (List Segment) :=
  match scan 0 none template.toList with
  | .ok pieces => .ok (gather pieces)
  | .error fault => .error (.invalidTemplate template fault)

/-- The distinct field names, in the order in which they first occur after the seen ones. -/
def namesAfter (seen : List String) : List Segment → List String
  | [] => []
  | .literal _ :: rest => namesAfter seen rest
  | .field name _ :: rest =>
      if seen.contains name then namesAfter seen rest
      else name :: namesAfter (seen ++ [name]) rest

/-- The distinct field names, in the order in which they first occur. -/
def names (segments : List Segment) : List String :=
  namesAfter [] segments

/-- Literal text with every brace doubled. -/
def escaped (text : String) : String :=
  String.ofList (text.toList.flatMap fun c => if c = '{' || c = '}' then [c, c] else [c])

/-- A placeholder as it is written in a template. -/
def placeholder (name : String) : Option Hint → String
  | none => "\x7b" ++ name ++ "\x7d"
  | some hint => "\x7b" ++ name ++ ":" ++ hint.raw ++ "\x7d"

/-- A segment as it is written in a template. -/
def spell : Segment → String
  | .literal text => escaped text
  | .field name hint => placeholder name hint

/-- The same segment without its hint. -/
def withoutHint : Segment → Segment
  | .literal text => .literal text
  | .field name _ => .field name none

/-- The template text from which names are built: hints left out, literal text unchanged. -/
def construction (segments : List Segment) : String :=
  String.join (segments.map fun segment => segment.withoutHint.spell)

end Segment

def fieldNames (template : String) : Except Failure (List String) :=
  (Segment.parse template).map Segment.names

/-- The text of a template with every hint left out. -/
def stripHints (template : String) : Except Failure String :=
  (Segment.parse template).map Segment.construction

end PathCatalog
