namespace PathCatalog.Text

/-- The parts of the text between the separators; there is always one more part than separators. -/
def parts (separator : Char) (text : String) : List String :=
  (text.toList.splitOn separator).map String.ofList

/-- The parts with the separator between neighbours. -/
def joined (separator : String) (texts : List String) : String :=
  separator.intercalate texts

/-- What stands before the first separator and what stands after it, if it occurs. -/
def cut? (separator : Char) (text : List Char) : Option (List Char × List Char) :=
  match text.dropWhile (· != separator) with
  | [] => none
  | _ :: rest => some (text.takeWhile (· != separator), rest)

/-- A line without the carriage return that may end it. -/
def withoutReturn (line : List Char) : List Char :=
  match line.reverse with
  | '\r' :: rest => rest.reverse
  | _ => line

/-- The lines of a text: each newline ends one, and nothing after the last newline is no line. -/
def lines (text : String) : List String :=
  let ended := text.toList.splitOn '\n'
  let last := ended.getLastD []
  let before := ended.dropLast.map fun line => String.ofList (withoutReturn line)
  if last.isEmpty then before else before ++ [String.ofList last]

/-- The least width of a cell is its text's number of code points; blanks fill it at the end. -/
def padded (width : Nat) (text : String) : String :=
  text ++ String.ofList (List.replicate (width - text.length) ' ')

/-- The greatest width that a cell can be given, which has to fit in two bytes. -/
def widest : Nat := UInt16.size - 1

/-- The padded cell, unless the width is greater than a cell can be given. -/
def padded? (width : Nat) (text : String) : Option String :=
  if width ≤ widest then some (padded width text) else none

end PathCatalog.Text
