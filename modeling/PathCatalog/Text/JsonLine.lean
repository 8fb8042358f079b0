import PathCatalog.Entries
import PathCatalog.Text.Natural
import PathCatalog.Text.Split

namespace PathCatalog.Text

/-- A character of a JSON string; control characters without a letter are spelled by number. -/
def jsonChar (c : Char) : List Char :=
  if c = '"' || c = '\\' then ['\\', c]
  else if c = '\n' then ['\\', 'n']
  else if c = '\r' then ['\\', 'r']
  else if c = '\t' then ['\\', 't']
  else if c = '\x08' then ['\\', 'b']
  else if c = '\x0c' then ['\\', 'f']
  else if c.toNat < 0x20 then
    ['\\', 'u', '0', '0', Nat.digitChar (c.toNat / 16), Nat.digitChar (c.toNat % 16)]
  else [c]

def jsonString (text : String) : String :=
  "\"" ++ String.ofList (text.toList.flatMap jsonChar) ++ "\""

/-- The members of an object in the order of their names. -/
def sortedMembers (members : FieldMap) : List (String × String) :=
  members.pairs.mergeSort fun left right =>
    comparePlain left.1.toList right.1.toList != .gt

def jsonObject (members : FieldMap) : String :=
  let written := (sortedMembers members).map fun member =>
    jsonString member.1 ++ ":" ++ jsonString member.2
  "\x7b" ++ joined "," written ++ "\x7d"

end PathCatalog.Text
