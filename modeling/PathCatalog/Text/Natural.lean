/-
This file orders texts so that runs of digits compare by their value.
-/

namespace PathCatalog.Text

/-- A maximal run of ASCII digits or of other characters. -/
inductive Run where
  | number (digits : List Char)
  | words (chars : List Char)
  deriving DecidableEq, Repr

/-- The run that a character alone makes. -/
def Run.single (c : Char) : Run :=
  if c.isDigit then .number [c] else .words [c]

def runs : List Char → List Run
  | [] => []
  | c :: rest =>
      match runs rest, c.isDigit with
      | .number digits :: more, true => .number (c :: digits) :: more
      | .words chars :: more, false => .words (c :: chars) :: more
      | others, _ => Run.single c :: others

/-- Order by the first code point that differs; a text comes before its continuations. -/
def comparePlain : List Char → List Char → Ordering
  | [], [] => .eq
  | [], _ :: _ => .lt
  | _ :: _, [] => .gt
  | a :: left, b :: right => (compare a b).then (comparePlain left right)

/-- Digit texts compare by value: without leading zeros the longer one is the larger one. -/
def compareDigits (left right : List Char) : Ordering :=
  let left := left.dropWhile (· == '0')
  let right := right.dropWhile (· == '0')
  (compare left.length right.length).then (comparePlain left right)

/-- A number comes before words. -/
def Run.compare : Run → Run → Ordering
  | .number left, .number right => compareDigits left right
  | .number _, .words _ => .lt
  | .words _, .number _ => .gt
  | .words left, .words right => comparePlain left right

/-- The first runs that differ decide; otherwise the text with fewer runs comes first. -/
def compareRuns : List Run → List Run → Ordering
  | [], [] => .eq
  | [], _ :: _ => .lt
  | _ :: _, [] => .gt
  | a :: left, b :: right => (a.compare b).then (compareRuns left right)

/-- Natural order of two texts. -/
def naturalCompare (left right : String) : Ordering :=
  (compareRuns (runs left.toList) (runs right.toList)).then
    (comparePlain left.toList right.toList)

def naturalSort (texts : List String) : List String :=
  texts.mergeSort fun left right => naturalCompare left right != .gt

end PathCatalog.Text
