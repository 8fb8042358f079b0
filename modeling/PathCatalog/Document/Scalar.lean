import PathCatalog.Document.Place

namespace PathCatalog.Document

/-- A value that is being read, the last character first, and the gap after what has been read. -/
structure Folding where
  text : List Char := []
  spaces : List Char := []
  firstBreak : List Char := []
  laterBreaks : List Char := []
  broken : Bool := false
  deriving Repr

namespace Folding

/-- What a gap becomes inside a value. -/
def gap (folding : Folding) : List Char :=
  if folding.broken then
    if folding.firstBreak == ['\n'] then
      if folding.laterBreaks.isEmpty then [' '] else folding.laterBreaks
    else folding.firstBreak ++ folding.laterBreaks
  else folding.spaces

/-- The value with its gap settled. -/
def settle (folding : Folding) : Folding :=
  ⟨folding.gap.reverse ++ folding.text, [], [], [], false⟩

/-- The value with more characters, the last one first. -/
def add (folding : Folding) (chars : List Char) : Folding :=
  ⟨chars ++ folding.text, folding.spaces, folding.firstBreak, folding.laterBreaks,
    folding.broken⟩

/-- The gap with one more blank; blanks at the start of a line do not count. -/
def addSpace (folding : Folding) (c : Char) : Folding :=
  if folding.broken then folding
  else ⟨folding.text, folding.spaces ++ [c], folding.firstBreak, folding.laterBreaks, false⟩

def addBreak (folding : Folding) (chars : List Char) : Folding :=
  if folding.broken then
    ⟨folding.text, folding.spaces, folding.firstBreak, folding.laterBreaks ++ chars, true⟩
  else ⟨folding.text, [], chars, folding.laterBreaks, true⟩

def value (folding : Folding) : String :=
  String.ofList folding.text.reverse

end Folding

/-- The blanks and line breaks from a place on; a tab may not indent a line of a plain value. -/
def readGap (leastColumn : Nat) : Nat → Folding → Place → Option (Folding × Place)
  | 0, _, _ => none
  | fuel + 1, folding, place =>
      if isGap place.next then
        if folding.broken && place.column < leastColumn && place.next == '\t' then none
        else readGap leastColumn fuel (folding.addSpace place.next) (place.skip 1)
      else if isBreak place.next then
        readGap leastColumn fuel (folding.addBreak place.breakText) place.skipBreak
      else some (folding, place)

/-- The characters that structure a flow collection. -/
def isFlowMark (c : Char) : Bool :=
  c == ',' || c == '[' || c == ']' || c == '{' || c == '}'

/-- A word of a plain value, the last character first; in a flow collection some colons are faults.
-/
def plainWord (inFlow : Bool) : Nat → List Char → Place → Option (List Char × Place)
  | 0, _, _ => none
  | fuel + 1, word, place =>
      let c := place.next
      let after := place.peek 1
      if isBoundary c then some (word, place)
      else if inFlow && c == ':' && (isFlowMark after || after == '?') then none
      else if c == ':' && isBoundary after then some (word, place)
      else if inFlow && isFlowMark c then some (word, place)
      else plainWord inFlow fuel (c :: word) (place.skip 1)

/-- A plain value, word by word. -/
def plainWords (inFlow : Bool) (leastColumn : Nat) :
    Nat → Folding → Place → Option (Folding × Place)
  | 0, _, _ => none
  | fuel + 1, folding, place =>
      if place.atDocumentMarker || place.next == '#' then some (folding, place)
      else do
        let (word, afterWord) ← plainWord inFlow place.steps [] place
        let read := if word.isEmpty then folding else folding.settle.add word
        if !isGap afterWord.next && !isBreak afterWord.next then
          return (read, afterWord)
        else
          let (gapped, afterGap) ←
            readGap leastColumn afterWord.steps read afterWord
          if !inFlow && afterGap.column < leastColumn then
            return (gapped, afterGap)
          else plainWords inFlow leastColumn fuel gapped afterGap

/-- The number that some hexadecimal digits denote. -/
def hexValue? (digits : List Char) : Option Nat :=
  digits.foldl (fun value c => do
    let value ← value
    if c.isDigit then return 16 * value + (c.toNat - '0'.toNat)
    else if 'a' ≤ c && c ≤ 'f' then return 16 * value + (c.toNat - 'a'.toNat + 10)
    else if 'A' ≤ c && c ≤ 'F' then return 16 * value + (c.toNat - 'A'.toNat + 10)
    else none) (some 0)

/-- The character that a code point denotes; surrogates denote none. -/
def charOfCode? (code : Nat) : Option Char :=
  if (0xD800 ≤ code && code ≤ 0xDFFF) || 0x10FFFF < code then none else some (Char.ofNat code)

/-- The characters that a letter after a backslash stands for. -/
def escapes : List (Char × Char) :=
  [('0', '\x00'), ('a', '\x07'), ('b', '\x08'), ('t', '\t'), ('\t', '\t'), ('n', '\n'),
   ('v', '\x0b'), ('f', '\x0c'), ('r', '\r'), ('e', '\x1b'), (' ', ' '), ('"', '"'), ('/', '/'),
   ('\\', '\\'), ('N', '\x85'), ('_', '\xa0'), ('L', '\u2028'), ('P', '\u2029')]

/-- How many hexadecimal digits follow a letter after a backslash. -/
def escapeDigits : List (Char × Nat) :=
  [('x', 2), ('u', 4), ('U', 8)]

/-- The character of an escape and the length of the escape. -/
def escape? (place : Place) : Option (Char × Nat) :=
  match escapes.lookup (place.peek 1) with
  | some c => some (c, 2)
  | none => do
      let count ← escapeDigits.lookup (place.peek 1)
      let digits := (place.rest.drop 2).take count
      if digits.length = count then
        let code ← hexValue? digits
        let c ← charOfCode? code
        return (c, count + 2)
      else none

/-- A word of a quoted value; it ends before a boundary, before the quote or after an escaped line
break. -/
def quotedWord (quote : Char) : Nat → Folding → Place → Option (Folding × Place)
  | 0, _, _ => none
  | fuel + 1, folding, place =>
      let c := place.next
      if isBoundary c then some (folding, place)
      else if quote == '\'' && c == quote && place.peek 1 == quote then
        quotedWord quote fuel (folding.add [quote]) (place.skip 2)
      else if c == quote then some (folding, place)
      else if quote == '"' && c == '\\' then
        if isBreak (place.peek 1) then
          some (⟨folding.text, [], [], [], true⟩, (place.skip 1).skipBreak)
        else do
          let (escaped, count) ← escape? place
          quotedWord quote fuel (folding.add [escaped]) (place.skip count)
      else quotedWord quote fuel (folding.add [c]) (place.skip 1)

/-- A quoted value up to its closing quote. -/
def quotedWords (quote : Char) : Nat → Folding → Place → Option (Folding × Place)
  | 0, _, _ => none
  | fuel + 1, folding, place =>
      if place.atDocumentMarker || place.atEnd then none
      else do
        let (read, afterWord) ← quotedWord quote place.steps folding place
        if afterWord.next == quote then
          return (read, afterWord.skip 1)
        else
          let (gapped, afterGap) ← readGap 0 afterWord.steps read afterWord
          quotedWords quote fuel gapped.settle afterGap

/-- What happens to the line breaks at the end of a block. -/
inductive Chomping where
  | strip
  | clip
  | keep
  deriving DecidableEq, Repr

/-- The chomping that a mark asks for. -/
def chompingOf? (c : Char) : Option Chomping :=
  if c = '-' then some .strip else if c = '+' then some .keep else none

/-- The indentation that a digit asks for. -/
def indentationOf? (c : Char) : Option Nat :=
  if c.isDigit && c != '0' then some (c.toNat - '0'.toNat) else none

/-- The marks after a block's indicator, in either order, and how many there are. -/
def blockHeader (place : Place) : Option (Chomping × Option Nat × Nat) :=
  match chompingOf? place.next, chompingOf? (place.peek 1) with
  | some chomping, _ =>
      if (place.peek 1).isDigit then do
        let indentation ← indentationOf? (place.peek 1)
        return (chomping, some indentation, 2)
      else some (chomping, none, 1)
  | none, second =>
      if place.next.isDigit then do
        let indentation ← indentationOf? place.next
        match second with
        | some chomping => return (chomping, some indentation, 2)
        | none => return (.clip, some indentation, 1)
      else some (.clip, none, 0)

/-- Empty lines before a line of a block, their breaks, and the deepest column they reach. -/
def blockBreaks (indentation : Option Nat) :
    Nat → Nat → List Char → Place → Option (Nat × List Char × Place)
  | 0, _, _, _ => none
  | fuel + 1, deepest, breaks, place =>
      let limit := match indentation with
        | some column => column - place.column
        | none => place.steps
      let indented := place.skip (min limit (place.rest.takeWhile (· == ' ')).length)
      let deepest := max deepest indented.column
      let shallow := match indentation with
        | some column => indented.column < column
        | none => true
      if shallow && indented.next == '\t' then none
      else if isBreak indented.next then
        blockBreaks indentation fuel deepest (breaks ++ indented.breakText) indented.skipBreak
      else some (deepest, breaks, indented)

/-- What stands between two lines of a block. -/
def lineGap (folded previousGap startsGap : Bool) (lineBreak breaks : List Char) : List Char :=
  if folded && lineBreak == ['\n'] && !previousGap && !startsGap then
    if breaks.isEmpty then [' '] else breaks
  else lineBreak ++ breaks

/-- The lines of a block at its column, the last character first, with what ends the last of them.
-/
def blockLines (folded : Bool) (column : Nat) :
    Nat → List Char → Bool → List Char → List Char → Place →
      Option (List Char × List Char × List Char × Place)
  | 0, _, _, _, _, _ => none
  | fuel + 1, text, previousGap, lineBreak, breaks, place =>
      if place.column == column && !place.atEnd then do
        let startsGap := isGap place.next
        let before := lineGap folded previousGap startsGap lineBreak breaks
        let content := place.rest.takeWhile fun c => !isBreak c
        let ended := place.skip content.length
        let (nextBreak, following) :=
          if ended.atEnd then ([], ended) else (ended.breakText, ended.skipBreak)
        let (_, laterBreaks, start) ←
          blockBreaks (some column) following.steps 0 [] following
        blockLines folded column fuel (content.reverse ++ before.reverse ++ text) startsGap
          nextBreak laterBreaks start
      else some (text, lineBreak, breaks, place)

/-- A block value after its indicator; `parent` is the least column for its lines. -/
def blockScalar (folded : Bool) (parent : Nat) (place : Place) : Option (String × Place) := do
  let (chomping, indentation, marks) ← blockHeader place
  let afterMarks := (place.skip marks).skipWhile isGap
  let headerEnd := if afterMarks.next == '#' then afterMarks.lineEnd else afterMarks
  if !isBreak headerEnd.next && !headerEnd.atEnd then none
  else
    let first := if isBreak headerEnd.next then headerEnd.skipBreak else headerEnd
    let fuel := first.steps
    let given := indentation.map fun count => (parent - 1) + count
    let (deepest, breaks, start) ← blockBreaks given fuel 0 [] first
    let column := given.getD (max deepest (max parent 1))
    let (text, lineBreak, trailing, after) ←
      blockLines folded column fuel [] false [] breaks start
    let ending := match chomping with
      | .strip => []
      | .clip => lineBreak
      | .keep => lineBreak ++ trailing
    return (String.ofList (text.reverse ++ ending), after)

end PathCatalog.Document
