/-
This file divides a document into tokens. Whether a value is a key shows only at the colon after it.
-/

import PathCatalog.Document.Tag

namespace PathCatalog.Document

/-- A mark or a value of a document. -/
inductive Token where
  | directive (directive : Directive)
  | documentStart
  | documentEnd
  | textEnd
  | sequenceStart
  | mappingStart
  | blockEnd
  | flowSequenceStart
  | flowSequenceEnd
  | flowMappingStart
  | flowMappingEnd
  | item
  | comma
  | key
  | colon
  | alias (name : String)
  | anchor (name : String)
  | tag (name : TagName)
  | scalar (text : String) (plain : Bool)
  deriving DecidableEq, Repr

/-- A token that may turn out to be a key, with the number of flow collections open there. -/
structure Candidate where
  depth : Nat
  number : Nat
  required : Bool
  octet : Nat
  line : Nat
  column : Nat
  deriving Repr

/-- The state of the reading: the tokens, last one first, and the possible keys, deepest first.
Nothing is known of what follows a cut. -/
structure Reading where
  place : Place
  cut : Bool := false
  certain : Nat := 0
  tokens : List Token := []
  indent : Int := -1
  outer : List Int := []
  depth : Nat := 0
  keyAllowed : Bool := true
  keys : List Candidate := []
  deriving Repr

namespace Reading

def inFlow (reading : Reading) : Bool :=
  0 < reading.depth

/-- The least column for the lines of a value. -/
def leastColumn (reading : Reading) : Nat :=
  (reading.indent + 1).toNat

def count (reading : Reading) : Nat :=
  reading.certain + reading.tokens.length

def push (reading : Reading) (token : Token) : Reading :=
  { reading with tokens := token :: reading.tokens }

def move (reading : Reading) (place : Place) : Reading :=
  { reading with place := place }

/-- Whether a text that is cut short has fewer characters than are looked at. -/
def lacks (reading : Reading) (count : Nat) (place : Place) : Bool :=
  reading.cut && (place.rest.drop (count - 1)).isEmpty

/-- One more token before a place, after which some characters are looked at. -/
def pushTo? (reading : Reading) (token : Token) (place : Place) (beyond : Nat) : Option Reading :=
  if reading.lacks beyond place then none else some ((reading.move place).push token)

/-- Whether a key may begin next. -/
def allowKey (reading : Reading) (allowed : Bool) : Reading :=
  { reading with keyAllowed := allowed }

/-- A token put in front of the one with the given number. -/
def insert (reading : Reading) (number : Nat) (token : Token) : Reading :=
  { reading with tokens := reading.tokens.insertIdx (reading.count - number) token }

/-- A deeper column opens a block, whose first token has the given number. -/
def openBlock (reading : Reading) (column number : Nat) (token : Token) : Reading :=
  if reading.inFlow || (column : Int) ≤ reading.indent then reading
  else
    { reading.insert number token with
      outer := reading.indent :: reading.outer
      indent := column }

/-- The blocks deeper than a column end. -/
def closeBlocks (column : Int) : List Int → Reading → Reading
  | [], reading => reading
  | above :: outer, reading =>
      if column < reading.indent then
        closeBlocks column outer { reading.push .blockEnd with indent := above, outer := outer }
      else reading

/-- The blocks deeper than a column end, except in a flow collection. -/
def unroll (reading : Reading) (column : Int) : Reading :=
  if reading.inFlow then reading else closeBlocks column reading.outer reading

/-- Whether a possible key lies on an earlier line or too far back. -/
def isStale (place : Place) (key : Candidate) : Bool :=
  key.line < place.line || key.octet + 1024 < place.octet

/-- Stale keys are no longer possible; one that has to be a key is a fault. -/
def dropStale (place : Place) (keys : List Candidate) : Option (List Candidate) :=
  if keys.any fun key => key.required && isStale place key then none
  else some (keys.filter fun key => !isStale place key)

/-- The possible key at the present depth, and the others. -/
def presentKey (reading : Reading) : Option Candidate × List Candidate :=
  match reading.keys with
  | key :: others => if key.depth = reading.depth then (some key, others) else (none, key :: others)
  | [] => (none, [])

/-- The possible key at this depth is given up, a fault if it has to be a key. -/
def giveUpKey (reading : Reading) : Option Reading :=
  match reading.presentKey with
  | (some key, others) => if key.required then none else some { reading with keys := others }
  | (none, _) => some reading

/-- The next token may be a key. -/
def saveKey (reading : Reading) : Option Reading :=
  if !reading.keyAllowed then some reading
  else do
    let cleared ← reading.giveUpKey
    let place := reading.place
    let required := !reading.inFlow && reading.indent == (place.column : Int)
    let key : Candidate :=
      ⟨reading.depth, reading.count, required, place.octet, place.line, place.column⟩
    return { cleared with keys := key :: cleared.keys }

/-- The place of the next token: blanks, comments and line breaks are passed over. -/
def advance : Nat → Reading → Reading
  | 0, reading => reading
  | fuel + 1, reading =>
      let tabs := reading.inFlow || !reading.keyAllowed
      let blanked := reading.place.skipOrderMark.skipWhile fun c => c == ' ' || (tabs && c == '\t')
      let ended := if blanked.next == '#' then blanked.lineEnd else blanked
      if isBreak ended.next then
        let next := reading.move ended.skipBreak
        advance fuel (if reading.inFlow then next else next.allowKey true)
      else reading.move ended

/-- A token of some characters, after which a key may or may not begin. -/
def mark (reading : Reading) (count : Nat) (token : Token) (allowed : Bool) : Reading :=
  ((reading.move (reading.place.skip count)).push token).allowKey allowed

/-- The start or the end of a document. -/
def documentMark (reading : Reading) (token : Token) : Option Reading := do
  let cleared ← (reading.unroll (-1)).giveUpKey
  return cleared.mark 3 token false

/-- The opening of a flow collection, which may itself be a key. -/
def openFlow (reading : Reading) (token : Token) : Option Reading := do
  let saved ← reading.saveKey
  return { saved with depth := saved.depth + 1 }.mark 1 token true

def closeFlow (reading : Reading) (token : Token) : Option Reading := do
  let cleared ← reading.giveUpKey
  return { cleared with depth := cleared.depth - 1 }.mark 1 token false

def comma (reading : Reading) : Option Reading := do
  let cleared ← reading.giveUpKey
  return cleared.mark 1 .comma true

/-- The dash of a block sequence. -/
def item (reading : Reading) : Option Reading :=
  if !reading.inFlow && !reading.keyAllowed then none
  else do
    let opened :=
      reading.openBlock reading.place.column reading.count .sequenceStart
    let cleared ← opened.giveUpKey
    return cleared.mark 1 .item true

/-- The question mark before a key. -/
def explicitKey (reading : Reading) : Option Reading :=
  if !reading.inFlow && !reading.keyAllowed then none
  else do
    let opened :=
      reading.openBlock reading.place.column reading.count .mappingStart
    let cleared ← opened.giveUpKey
    return cleared.mark 1 .key (!reading.inFlow)

/-- The colon after a key. -/
def colon (reading : Reading) : Option Reading :=
  match reading.presentKey with
  | (some key, others) =>
      let announced := { reading with keys := others }.insert key.number .key
      some ((announced.openBlock key.column key.number .mappingStart).mark 1 .colon false)
  | (none, _) =>
      if !reading.inFlow && !reading.keyAllowed then none
      else
        let opened :=
          reading.openBlock reading.place.column reading.count .mappingStart
        some (opened.mark 1 .colon (!reading.inFlow))

def directive (reading : Reading) : Option Reading := do
  let cleared ← (reading.unroll (-1)).giveUpKey
  let (found, after) ← readDirective reading.place
  let taken ← cleared.pushTo? (.directive found) after 1
  return taken.allowKey false

/-- A value that may be a key. -/
def plain (reading : Reading) : Option Reading := do
  let saved ← reading.saveKey
  let (folding, after) ←
    plainWords reading.inFlow reading.leastColumn reading.place.steps {} reading.place
  let taken ← saved.pushTo? (.scalar folding.value true) after (if folding.broken then 1 else 2)
  return taken.allowKey folding.broken

/-- A quoted value that may be a key. -/
def quoted (reading : Reading) (quote : Char) : Option Reading := do
  let saved ← reading.saveKey
  let (folding, after) ←
    quotedWords quote reading.place.steps {} (reading.place.skip 1)
  let taken ← saved.pushTo? (.scalar folding.value false) after 1
  return taken.allowKey false

/-- A block value, which cannot be a key. -/
def block (reading : Reading) (folded : Bool) : Option Reading := do
  let cleared ← reading.giveUpKey
  let (text, after) ← blockScalar folded reading.leastColumn (reading.place.skip 1)
  let taken ← cleared.pushTo? (.scalar text false) after 1
  return taken.allowKey true

/-- The name after an anchor's or an alias's mark. -/
def nameAfter (place : Place) : Option (String × Place) :=
  let name := (place.rest.drop 1).takeWhile isNameChar
  let after := place.skip (name.length + 1)
  if name.isEmpty || !(isBoundary after.next || "?:,]\x7d%@`".toList.contains after.next) then none
  else some (String.ofList name, after)

/-- An anchor, an alias or a tag, which may begin a key. -/
def property (reading : Reading) (found : Option (Token × Place)) : Option Reading := do
  let saved ← reading.saveKey
  let (token, after) ← found
  let taken ← saved.pushTo? token after 1
  return taken.allowKey false

def finish (reading : Reading) : Option Reading := do
  let place := reading.place
  let ended : Place :=
    if place.column = 0 then place
    else ⟨place.rest, place.length, place.octet, place.line + 1, 0⟩
  let cleared ← ((reading.move ended).unroll (-1)).giveUpKey
  return cleared.push .textEnd

/-- Characters that cannot begin a plain value. -/
def isIndicator (c : Char) : Bool :=
  "-?:,[]\x7b\x7d#&*!|>'\"%@`".toList.contains c

def beginsPlain (reading : Reading) : Bool :=
  let c := reading.place.next
  let after := reading.place.peek 1
  (!isBoundary c && !isIndicator c) || (c == '-' && !isGap after) ||
    (!reading.inFlow && (c == '?' || c == ':') && !isBoundary after)

/-- The next token; nothing if there is a fault. -/
def step (reading : Reading) : Option Reading := do
  let advanced := advance reading.place.steps reading
  let keys ← dropStale advanced.place advanced.keys
  let place := advanced.place
  let here := { advanced with keys := keys }.unroll place.column
  let c := place.next
  let bounded := isBoundary (place.peek 1)
  if reading.lacks 4 place then none
  else if place.atEnd then here.finish
  else if place.column = 0 && c == '%' then here.directive
  else if place.atMarker '-' then here.documentMark .documentStart
  else if place.atMarker '.' then here.documentMark .documentEnd
  else if c == '[' then here.openFlow .flowSequenceStart
  else if c == '{' then here.openFlow .flowMappingStart
  else if c == ']' then here.closeFlow .flowSequenceEnd
  else if c == '}' then here.closeFlow .flowMappingEnd
  else if c == ',' then here.comma
  else if c == '-' && bounded then here.item
  else if c == '?' && (here.inFlow || bounded) then here.explicitKey
  else if c == ':' && (here.inFlow || bounded) then here.colon
  else if c == '*' then
    here.property ((nameAfter place).map fun found => (.alias found.1, found.2))
  else if c == '&' then
    here.property ((nameAfter place).map fun found => (.anchor found.1, found.2))
  else if c == '!' then
    here.property ((readTag here.inFlow place).map fun found => (.tag found.1, found.2))
  else if c == '|' && !here.inFlow then here.block false
  else if c == '>' && !here.inFlow then here.block true
  else if c == '\'' || c == '"' then here.quoted c
  else if here.beginsPlain then here.plain
  else none

/-- How many of the tokens that were not certain are so now: those before any possible key. -/
def settled (reading : Reading) : Nat :=
  match reading.keys.getLast? with
  | some key => key.number - reading.certain
  | none => reading.tokens.length

/-- The tokens that have become certain, last one first, and the reading without them. -/
def settle (reading : Reading) : List Token × Reading :=
  let kept := reading.tokens.length - reading.settled
  (reading.tokens.drop kept,
    { reading with
      certain := reading.certain + reading.settled
      tokens := reading.tokens.take kept })

/-- The reading after the next token, with the tokens that have become certain. -/
def next? (reading : Reading) : Option (List Token × Reading) := do
  let stepped ← reading.step
  let keys ← dropStale stepped.place stepped.keys
  return { stepped with keys := keys }.settle

/-- The tokens of a text after the given ones, last one first; a cut ends in a fault. -/
def run : Nat → List Token → Reading → List Token
  | 0, done, _ => done.reverse
  | fuel + 1, done, reading =>
      match reading.next? with
      | none => done.reverse
      | some (.textEnd :: found, _) => (.textEnd :: found ++ done).reverse
      | some (found, next) => run fuel (found ++ done) next

end Reading

/-- A text is taken in portions of whole characters with at most this many octets. -/
def portionOctets : Nat := 16384

/-- The characters in the portions before the first one with a character that is not allowed; the
present portion has `room` left. -/
def soundPortions : Nat → Nat → Nat → List Char → Option Nat
  | _, _, _, [] => none
  | full, part, room, c :: rest =>
      if c.utf8Size ≤ room then
        if isAllowed c then soundPortions full (part + 1) (room - c.utf8Size) rest else some full
      else if isAllowed c then
        soundPortions (full + part) 1 (portionOctets - c.utf8Size) rest
      else some (full + part)

/-- The tokens of a document's text, which is read up to the portion with a character that is not
allowed. -/
def tokens (text : String) : List Token :=
  let chars := text.toList
  let reading : Reading := match soundPortions 0 0 portionOctets chars with
    | some count => { place := .start (chars.take count), cut := true }
    | none => { place := .start chars }
  reading.run (chars.length + 2) []

end PathCatalog.Document
