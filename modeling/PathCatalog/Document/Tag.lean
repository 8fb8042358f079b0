import PathCatalog.Document.Scalar

namespace PathCatalog.Document

/-- What a tag says about a value: that there is none, another kind, or nothing in particular. -/
inductive Tag where
  | null
  | other
  | unspecific
  deriving DecidableEq, Repr

/-- A tag as it is written; one in full has an empty handle. -/
structure TagName where
  handle : String
  suffix : String
  deriving DecidableEq, Repr

/-- A line before a document's start: the version of its language or what a handle stands for. -/
inductive Directive where
  | version (major minor : Nat)
  | handle (name meaning : String)
  deriving DecidableEq, Repr

/-- A character of a tag; a tag in full may hold the marks of flow sequences. -/
def isTagChar (full : Bool) (c : Char) : Bool :=
  isNameChar c || ";/?:@&=+$.!~*'()".toList.contains c || (full && ",[]".toList.contains c)

/-- The octet that is written with a percent sign. -/
def octet? (place : Place) : Option Nat :=
  let digits := (place.rest.drop 1).take 2
  if place.next == '%' && digits.length = 2 then hexValue? digits else none

/-- How many octets follow the first one of a character. -/
def followingOctets? (first : Nat) : Option Nat :=
  if first < 0x80 then some 0
  else if first < 0xC0 then none
  else if first < 0xE0 then some 1
  else if first < 0xF0 then some 2
  else if first < 0xF8 then some 3
  else none

/-- Octets after the first one of a character, put in front of a text that is read backwards. -/
def readFollowing : Nat → List Char → Place → Option (List Char × Place)
  | 0, text, place => some (text, place)
  | count + 1, text, place => do
      let octet ← octet? place
      if 0x80 ≤ octet && octet < 0xC0 then
        readFollowing count (Char.ofNat octet :: text) (place.skip 3)
      else none

/-- The octets of a character that is written with percent signs. -/
def readOctets (text : List Char) (place : Place) : Option (List Char × Place) := do
  let first ← octet? place
  let count ← followingOctets? first
  readFollowing count (Char.ofNat first :: text) (place.skip 3)

/-- The characters of a tag from a place on, the last one first. -/
def readTagChars (full : Bool) : Nat → List Char → Place → Option (List Char × Place)
  | 0, _, _ => none
  | fuel + 1, text, place =>
      if place.next == '%' then do
        let (more, after) ← readOctets text place
        readTagChars full fuel more after
      else if isTagChar full place.next then
        readTagChars full fuel (place.next :: text) (place.skip 1)
      else some (text, place)

/-- The text that some characters spell, the last one first; a zero octet ends it. -/
def spelled (chars : List Char) : String :=
  String.ofList (chars.reverse.takeWhile (· != '\x00'))

/-- At least one character of a tag. -/
def readTagText (full : Bool) (place : Place) : Option (String × Place) := do
  let (text, after) ← readTagChars full place.steps [] place
  if text.isEmpty then none else some (spelled text, after)

/-- An exclamation mark, with a name between two of them where there are two. -/
def readHandle (place : Place) : List Char × Place :=
  let name := (place.rest.drop 1).takeWhile isNameChar
  let after := place.skip (name.length + 1)
  if after.next == '!' then ('!' :: name ++ ['!'], after.skip 1) else ('!' :: name, after)

/-- Whether a handle stands between two exclamation marks. -/
def isClosed (handle : List Char) : Bool :=
  2 ≤ handle.length && handle.getLast? == some '!'

/-- A tag between angle brackets, which is written in full. -/
def readFullTag (place : Place) : Option (TagName × Place) := do
  let (text, after) ← readTagText true (place.skip 2)
  if after.next == '>' then some (⟨"", text⟩, after.skip 1) else none

/-- A tag with a handle; without a suffix it is the tag that says nothing in particular. -/
def readShortTag (place : Place) : Option (TagName × Place) :=
  let (handle, rest) := readHandle place
  if isClosed handle then do
    let (suffix, after) ← readTagText false rest
    return (⟨String.ofList handle, suffix⟩, after)
  else do
    let (text, after) ← readTagChars false place.steps (handle.drop 1).reverse rest
    let suffix := spelled text
    return (if suffix.isEmpty then ⟨"", "!"⟩ else ⟨"!", suffix⟩, after)

/-- A tag, after which a boundary stands, or a comma in a flow collection. -/
def readTag (inFlow : Bool) (place : Place) : Option (TagName × Place) := do
  let (name, after) ← if place.peek 1 == '<' then readFullTag place else readShortTag place
  if isBoundary after.next || (inFlow && after.next == ',') then some (name, after) else none

def readNumber (place : Place) : Option (Nat × Place) :=
  let digits := place.rest.takeWhile Char.isDigit
  if digits.isEmpty || 9 < digits.length then none
  else
    let value := digits.foldl (fun value c => 10 * value + (c.toNat - '0'.toNat)) 0
    some (value, place.skip digits.length)

/-- Two numbers with a point between them. -/
def readVersion (place : Place) : Option (Directive × Place) := do
  let (major, point) ← readNumber place
  if point.next == '.' then
    let (minor, after) ← readNumber (point.skip 1)
    return (.version major minor, after)
  else none

/-- A handle and, after a gap, what it stands for. -/
def readMeaning (place : Place) : Option (Directive × Place) :=
  let (handle, rest) := readHandle place
  if place.next == '!' && (isClosed handle || handle.length = 1) && isGap rest.next then do
    let (meaning, after) ← readTagText true (rest.skipWhile isGap)
    if isBoundary after.next then some (.handle (String.ofList handle) meaning, after) else none
  else none

/-- The end of a directive's line, before which only a comment may stand. -/
def directiveEnd (place : Place) : Option Place :=
  let gapped := place.skipWhile isGap
  let ended := if gapped.next == '#' then gapped.lineEnd else gapped
  if isBreak ended.next then some ended.skipBreak
  else if ended.atEnd then some ended
  else none

/-- A directive with its line; only versions and handles are known. -/
def readDirective (place : Place) : Option (Directive × Place) := do
  let name := (place.rest.drop 1).takeWhile isNameChar
  let named := place.skip (name.length + 1)
  let argument := named.skipWhile isGap
  if !isBoundary named.next then none
  else
    let (directive, after) ← match String.ofList name with
      | "YAML" => readVersion argument
      | "TAG" => readMeaning argument
      | _ => none
    let ended ← directiveEnd after
    return (directive, ended)

/-- What the handles of a document stand for. -/
abbrev Handles := List (String × String)

/-- The handles that need no directive. -/
def predefinedHandles : Handles :=
  [("!", "!"), ("!!", "tag:yaml.org,2002:")]

/-- The text of the tag that says that there is no value. -/
def nullTag : String := "tag:yaml.org,2002:null"

/-- The whole text of a tag, if its handle is known. -/
def TagName.text? (handles : Handles) (name : TagName) : Option String :=
  if name.handle.isEmpty then some name.suffix
  else (handles.lookup name.handle).map (· ++ name.suffix)

/-- What the text of a tag says. -/
def Tag.ofText (text : String) : Tag :=
  if text == "!" then .unspecific else if text == nullTag then .null else .other

/-- What a tag says, if its handle is known. -/
def TagName.tag? (handles : Handles) (name : TagName) : Option Tag :=
  (name.text? handles).map Tag.ofText

def isKnownVersion (major minor : Nat) : Bool :=
  major = 1 && (minor = 1 || minor = 2)

/-- The handles of a document. Unknown or second versions and handles explained twice are faults. -/
def Handles.ofDirectives : Bool → Handles → List Directive → Option Handles
  | _, handles, [] => some (handles ++ predefinedHandles)
  | versioned, handles, .version major minor :: rest =>
      if versioned || !isKnownVersion major minor then none
      else Handles.ofDirectives true handles rest
  | versioned, handles, .handle name meaning :: rest =>
      if (handles.lookup name).isSome then none
      else Handles.ofDirectives versioned (handles ++ [(name, meaning)]) rest

end PathCatalog.Document
