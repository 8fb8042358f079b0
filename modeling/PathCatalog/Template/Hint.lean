import PathCatalog.Text.Blank

namespace PathCatalog

inductive CharClass where
  | any
  | digits
  | letters
  | word
  | nonword
  | nonspace
  | hex
  deriving DecidableEq, Repr

namespace CharClass

/-- An ASCII letter, an ASCII digit or an underscore. -/
def isWordChar (c : Char) : Bool :=
  c.isAlphanum || c == '_'

/-- An ASCII digit or one of the letters from `a` to `f` in either case. -/
def isHexChar (c : Char) : Bool :=
  c.isDigit || ('a' ≤ c && c ≤ 'f') || ('A' ≤ c && c ≤ 'F')

/-- The members of a class; all classes but `any`, `nonword` and `nonspace` are ASCII. -/
def contains : CharClass → Char → Bool
  | .any, _ => true
  | .digits, c => c.isDigit
  | .letters, c => c.isAlpha
  | .word, c => isWordChar c
  | .nonword, c => !isWordChar c
  | .nonspace, c => !Text.isBlank c
  | .hex, c => isHexChar c

/-- The class that a letter names. -/
def ofLetter? : Char → Option CharClass
  | 'd' => some .digits
  | 'l' => some .letters
  | 'w' => some .word
  | 'W' => some .nonword
  | 'S' => some .nonspace
  | 'x' => some .hex
  | _ => none

/-- The class after the width: any character, or the class of the one letter there. -/
def ofLetters? : List Char → Option CharClass
  | [] => some .any
  | [letter] => ofLetter? letter
  | _ => none

def label : CharClass → String
  | .any => "any"
  | .digits => "digits"
  | .letters => "letters"
  | .word => "word"
  | .nonword => "nonword"
  | .nonspace => "nonspace"
  | .hex => "hex"

end CharClass

/-- The number that a run of decimal digits denotes. -/
def digitsValue (digits : List Char) : Nat :=
  digits.foldl (fun value digit => 10 * value + (digit.toNat - '0'.toNat)) 0

/-- Widths fit in a machine word, so they are below this bound. -/
def widthBound : Nat := UInt64.size

structure Hint where
  raw : String
  width : Option Nat
  kind : CharClass
  deriving DecidableEq, Repr

/-- A run of digits is a width when it denotes a positive number below the bound. -/
def Hint.readWidth? (digits : List Char) : Option Nat :=
  let value := digitsValue digits
  if 0 < value && value < widthBound then some value else none

/-- A hint is a possibly empty run of ASCII digits, then at most one class letter. -/
def Hint.parse? (spec : String) : Option Hint := do
  let digits := spec.toList.takeWhile Char.isDigit
  let kind ← CharClass.ofLetters? (spec.toList.dropWhile Char.isDigit)
  if digits.isEmpty then
    return ⟨spec, none, kind⟩
  else
    let width ← Hint.readWidth? digits
    return ⟨spec, some width, kind⟩

end PathCatalog
