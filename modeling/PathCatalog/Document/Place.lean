namespace PathCatalog.Document

/-- A space or a tab. -/
def isGap (c : Char) : Bool :=
  c == ' ' || c == '\t'

def isBreak (c : Char) : Bool :=
  c == '\n' || c == '\r' || c == '\x85' || c == '\u2028' || c == '\u2029'

/-- The character that stands for the end of the text; no document may hold it. -/
def endMark : Char := '\x00'

/-- A gap, a line break or the end of the text. -/
def isBoundary (c : Char) : Bool :=
  isGap c || isBreak c || c == endMark

def orderMark : Char := '\ufeff'

/-- The characters that a document may hold. -/
def isAllowed (c : Char) : Bool :=
  let code := c.toNat
  code == 0x9 || code == 0xA || code == 0xD || (0x20 ≤ code && code ≤ 0x7E) || code == 0x85 ||
    (0xA0 ≤ code && code ≤ 0xFFFD) || 0x10000 ≤ code

def isNameChar (c : Char) : Bool :=
  c.isAlphanum || c == '_' || c == '-'

/-- What remains of a text of some length, and the octet, the line and the column reached. -/
structure Place where
  rest : List Char
  length : Nat
  octet : Nat := 0
  line : Nat := 0
  column : Nat := 0
  deriving Repr

namespace Place

def peek (place : Place) (distance : Nat) : Char :=
  place.rest.getD distance endMark

def next (place : Place) : Char :=
  place.peek 0

def atEnd (place : Place) : Bool :=
  place.next == endMark

def start (text : List Char) : Place :=
  ⟨text, text.length, 0, 0, 0⟩

/-- More steps than any walk over the text takes. -/
def steps (place : Place) : Nat :=
  place.length + 1

/-- How many octets some characters take. -/
def octets (chars : List Char) : Nat :=
  chars.foldl (fun count c => count + c.utf8Size) 0

/-- The place after some characters of the same line. -/
def skip (place : Place) (count : Nat) : Place :=
  ⟨place.rest.drop count, place.length, place.octet + octets (place.rest.take count), place.line,
    place.column + count⟩

/-- The place after a line break, of which a return with a newline is one. -/
def skipBreak (place : Place) : Place :=
  match place.rest with
  | '\r' :: '\n' :: rest => ⟨rest, place.length, place.octet + 2, place.line + 1, 0⟩
  | c :: rest => ⟨rest, place.length, place.octet + c.utf8Size, place.line + 1, 0⟩
  | [] => place

/-- A line break as it is kept in a value. -/
def breakText (place : Place) : List Char :=
  if place.next == '\u2028' || place.next == '\u2029' then [place.next] else ['\n']

/-- Whether a line starts with three of the same mark and a boundary. -/
def atMarker (place : Place) (mark : Char) : Bool :=
  place.column == 0 && place.next == mark && place.peek 1 == mark && place.peek 2 == mark &&
    isBoundary (place.peek 3)

/-- Whether a line starts or ends a document. -/
def atDocumentMarker (place : Place) : Bool :=
  place.atMarker '-' || place.atMarker '.'

/-- The place after a byte order mark, which may start a line. -/
def skipOrderMark (place : Place) : Place :=
  if place.column == 0 && place.next == orderMark then place.skip 1 else place

/-- The place after the characters that satisfy a test, none of them a line break. -/
def skipWhile (place : Place) (test : Char → Bool) : Place :=
  place.skip (place.rest.takeWhile test).length

def lineEnd (place : Place) : Place :=
  place.skipWhile fun c => !isBreak c

end Place

end PathCatalog.Document
