import PathCatalog.Text.Hidden

namespace PathCatalog.Text

/-- The hexadecimal digits of a number. -/
def hexText (value : Nat) : List Char :=
  Nat.toDigits 16 value

def quotedChar (c : Char) : List Char :=
  if c = '\x00' then ['\\', '0']
  else if c = '\t' then ['\\', 't']
  else if c = '\n' then ['\\', 'n']
  else if c = '\r' then ['\\', 'r']
  else if c = '"' || c = '\\' then ['\\', c]
  else if isHidden c then
    ['\\', 'u', '{'] ++ hexText c.toNat ++ ['}']
  else [c]

def quoted (text : String) : String :=
  "\"" ++ String.ofList (text.toList.flatMap quotedChar) ++ "\""

end PathCatalog.Text
