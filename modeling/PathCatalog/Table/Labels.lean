import PathCatalog.Table.Ensemble

namespace PathCatalog.Ensemble

/-- The letters of all labels of a table; the forcing is one of them when the first label has it. -/
def lettersOf (first : String) : List String :=
  if 'f' ∈ first.toList then ["r", "i", "p", "f"] else ["r", "i", "p"]

/-- The template with a run of digits after every letter, named by the letter. -/
def formOf (letters : List String) : String :=
  String.join (letters.map fun letter => letter ++ "\x7b" ++ letter ++ ":d\x7d")

/-- A number is written with ASCII digits, at least one. -/
def IsNumber (text : String) : Prop :=
  text ≠ "" ∧ ∀ c ∈ text.toList, c.isDigit = true

-- Not by instance search, which may go through all characters and not only those of the text.
instance (text : String) : Decidable (IsNumber text) :=
  decidable_of_iff (text ≠ "" ∧ text.toList.all Char.isDigit = true) <| by
    rw [IsNumber, List.all_eq_true]

/-- Numbers spell a label when it is made of the letters with one of the numbers after each. -/
structure Spells (letters : List String) (label : String) (numbers : List String) : Prop where
  complete : numbers.length = letters.length
  decimal : ∀ number ∈ numbers, IsNumber number
  joined : String.join (letters.zipWith (· ++ ·) numbers) = label

instance (letters : List String) (label : String) (numbers : List String) :
    Decidable (Spells letters label numbers) :=
  decidable_of_iff (numbers.length = letters.length ∧ (∀ number ∈ numbers, IsNumber number) ∧
    String.join (letters.zipWith (· ++ ·) numbers) = label)
    ⟨fun holds => ⟨holds.1, holds.2.1, holds.2.2⟩,
      fun spells => ⟨spells.complete, spells.decimal, spells.joined⟩⟩

/-- A label has the form of some letters when there are numbers that spell it. -/
def HasForm (letters : List String) (label : String) : Prop :=
  ∃ numbers, Spells letters label numbers

end PathCatalog.Ensemble
