import Mathlib.Data.List.TakeWhile
import Mathlib.Data.Nat.Digits.Defs
import PathCatalog.Proofs.Text.Numeral

namespace PathCatalog

/-- The letter of a class. -/
inductive CharClass.Letter : Char → CharClass → Prop where
  | digits : Letter 'd' .digits
  | letters : Letter 'l' .letters
  | word : Letter 'w' .word
  | nonword : Letter 'W' .nonword
  | nonspace : Letter 'S' .nonspace
  | hex : Letter 'x' .hex

/-- A class is spelled by its letter; nothing stands for any character. -/
inductive CharClass.Spelled : List Char → CharClass → Prop where
  | absent : Spelled [] .any
  | named {letter : Char} {kind : CharClass} (named : Letter letter kind) : Spelled [letter] kind

namespace Hint

/-- The number that decimal digits denote, the last one of which counts the ones. -/
def denoted (digits : List Char) : Nat :=
  Nat.ofDigits 10 (digits.reverse.map Text.digitValue)

/-- ASCII digits are a width when they denote a positive number of 64 bits. -/
structure IsWidth (digits : List Char) : Prop where
  decimal : Text.IsDecimal digits
  positive : 1 ≤ denoted digits
  bounded : denoted digits ≤ 2 ^ 64 - 1

/-- A width is spelled by its digits; nothing stands for no width. -/
inductive WidthSpelled : List Char → Option Nat → Prop where
  | absent : WidthSpelled [] none
  | given {digits : List Char} (isWidth : IsWidth digits) :
      WidthSpelled digits (some (denoted digits))

/-- A hint is spelled by its width and then its class, and it keeps the text. -/
structure Spells (spec : String) (hint : Hint) : Prop where
  raw : hint.raw = spec
  parts : ∃ digits letters, spec.toList = digits ++ letters ∧
    WidthSpelled digits hint.width ∧ hint.kind.Spelled letters

end Hint

namespace CharClass

variable {letter : Char} {letters : List Char} {kind : CharClass}

theorem ofLetter?_eq_some_iff : ofLetter? letter = some kind ↔ Letter letter kind := by
  constructor
  · intro named
    unfold ofLetter? at named
    split at named <;> cases named <;> constructor
  · intro named
    cases named <;> rfl

theorem ofLetters?_eq_some_iff : ofLetters? letters = some kind ↔ Spelled letters kind := by
  constructor
  · intro read
    match letters with
    | [] =>
        cases read
        exact .absent
    | [letter] => exact .named (ofLetter?_eq_some_iff.mp read)
    | _ :: _ :: _ => cases read
  · intro spelled
    cases spelled with
    | absent => rfl
    | named named => exact ofLetter?_eq_some_iff.mpr named

/-- What spells a class is at most a letter. -/
theorem Spelled.isWordChar (spelled : Spelled letters kind) :
    ∀ c ∈ letters, CharClass.isWordChar c = true := by
  intro c member
  cases spelled with
  | absent => cases member
  | named named =>
      rw [List.mem_singleton.mp member]
      cases named <;> rfl

/-- The letters of the classes are six. -/
theorem exists_letter_iff :
    (∃ kind, Letter letter kind) ↔ letter ∈ ['d', 'l', 'w', 'W', 'S', 'x'] := by
  constructor
  · intro named
    obtain ⟨kind, named⟩ := named
    cases named <;> decide
  · intro member
    simp only [List.mem_cons, List.not_mem_nil, or_false] at member
    rcases member with rfl | rfl | rfl | rfl | rfl | rfl
    exacts [⟨_, .digits⟩, ⟨_, .letters⟩, ⟨_, .word⟩, ⟨_, .nonword⟩, ⟨_, .nonspace⟩, ⟨_, .hex⟩]

end CharClass

namespace Hint

section Widths

variable {c : Char} {digits : List Char} {value width : Nat}

theorem denoted_eq (digits : List Char) : denoted digits = digitsValue digits := by
  induction digits with
  | nil => rfl
  | cons c rest ih =>
      rw [Text.digitsValue_cons, ← ih, denoted, denoted, List.reverse_cons, List.map_append,
        Nat.ofDigits_append, List.length_map, List.length_reverse, List.map_singleton,
        Nat.ofDigits_singleton, Nat.mul_comm, Nat.add_comm]

/-- A run of ASCII digits is read as a width just when it is one. -/
theorem readWidth?_eq_some_iff (decimal : Text.IsDecimal digits) :
    readWidth? digits = some width ↔ IsWidth digits ∧ denoted digits = width := by
  rw [denoted_eq]
  simp only [readWidth?, Bool.and_eq_true, decide_eq_true_eq, Option.ite_none_right_eq_some,
    Option.some.injEq]
  refine and_congr_left fun _ => ⟨fun accepted => ?_, fun isWidth => ?_⟩
  · obtain ⟨positive, bounded⟩ := accepted
    exact ⟨decimal, (denoted_eq digits).symm ▸ positive,
      (denoted_eq digits).symm ▸ Nat.le_pred_of_lt bounded⟩
  · obtain ⟨_, positive, bounded⟩ := isWidth
    rw [denoted_eq] at positive bounded
    exact ⟨positive, Nat.lt_of_le_pred (by decide) bounded⟩

/-- A number with one more digit, unless the character is none or the number leaves its word. -/
def pushDigit? (value : Nat) (c : Char) : Option Nat :=
  if c.isDigit ∧ 10 * value + Text.digitValue c < widthBound then
    some (10 * value + Text.digitValue c)
  else none

/-- The number in a machine word, read digit by digit. -/
def readWord? (digits : List Char) : Option Nat :=
  digits.foldlM pushDigit? 0

/-- A number that is no longer in its word after a digit does not come back into it. -/
theorem foldlM_pushDigit? (inside : value < widthBound) :
    digits.foldlM pushDigit? value = some width ↔ Text.IsDecimal digits ∧
      value * 10 ^ digits.length + digitsValue digits = width ∧ width < widthBound := by
  induction digits generalizing value with
  | nil =>
      have empty : Text.IsDecimal [] := nofun
      simp only [List.foldlM_nil, pure, Option.some.injEq, empty, true_and, List.length_nil,
        pow_zero, Nat.mul_one, digitsValue, List.foldl_nil, Nat.add_zero]
      exact ⟨fun same => ⟨same, same ▸ inside⟩, And.left⟩
  | cons c rest ih =>
      have shifted : (10 * value + Text.digitValue c) * 10 ^ rest.length + digitsValue rest =
          value * 10 ^ (c :: rest).length + digitsValue (c :: rest) := by
        rw [Text.digitsValue_cons, List.length_cons]
        ring
      rw [List.foldlM_cons, Text.isDecimal_cons]
      simp only [bind, Option.bind_eq_some_iff, pushDigit?, Option.ite_none_right_eq_some,
        Option.some.injEq]
      constructor
      · intro pushed
        obtain ⟨next, ⟨⟨digit, bounded⟩, rfl⟩, read⟩ := pushed
        obtain ⟨decimal, same, fits⟩ := (ih bounded).mp read
        exact ⟨⟨digit, decimal⟩, shifted ▸ same, fits⟩
      · intro holds
        obtain ⟨⟨digit, decimal⟩, same, fits⟩ := holds
        rw [← shifted] at same
        have smaller : 10 * value + Text.digitValue c ≤ width := by
          rw [← same]
          exact (Nat.le_mul_of_pos_right _ (Nat.pow_pos (by decide))).trans (Nat.le_add_right _ _)
        have bounded := Nat.lt_of_le_of_lt smaller fits
        exact ⟨_, ⟨⟨digit, bounded⟩, rfl⟩, (ih bounded).mpr ⟨decimal, same, fits⟩⟩

/-- Digit by digit, exactly the widths are read as positive numbers. -/
theorem filter_readWord?_eq_some_iff : (readWord? digits).filter (0 < ·) = some width ↔
    IsWidth digits ∧ denoted digits = width := by
  rw [Option.filter_eq_some_iff, readWord?, foldlM_pushDigit? (by decide), Nat.zero_mul,
    Nat.zero_add, decide_eq_true_eq]
  constructor
  · intro read
    obtain ⟨⟨decimal, rfl, bounded⟩, positive⟩ := read
    have same := denoted_eq digits
    exact ⟨⟨decimal, same ▸ positive, same ▸ Nat.le_pred_of_lt bounded⟩, same⟩
  · intro holds
    obtain ⟨⟨decimal, positive, bounded⟩, rfl⟩ := holds
    exact ⟨⟨decimal, (denoted_eq digits).symm, Nat.lt_of_le_pred (by decide) bounded⟩, positive⟩

/-- What spells a width is a run of ASCII digits. -/
theorem WidthSpelled.decimal {spelled : Option Nat} (front : WidthSpelled digits spelled) :
    Text.IsDecimal digits := by
  cases front with
  | absent => exact nofun
  | given isWidth => exact isWidth.decimal

theorem WidthSpelled.positive (front : WidthSpelled digits (some width)) : 0 < width := by
  cases front with
  | given isWidth => exact isWidth.positive

end Widths

/-- Characters that make up a run of digits: those of ASCII and possibly others, but no letter of a
class. -/
structure Numerals where
  holds : Char → Bool
  ascii : ∀ c, c.isDigit = true → holds c = true
  apart : ∀ c kind, CharClass.Letter c kind → holds c = false

/-- The digits of ASCII alone. -/
def Numerals.decimal : Numerals where
  holds := Char.isDigit
  ascii _ digit := digit
  apart _ _ named := by cases named <;> rfl

/-- A hint, its width read in a given way from the numerals at the front. -/
def readWith? (numerals : Numerals) (read? : List Char → Option Nat) (spec : String) :
    Option Hint := do
  let digits := spec.toList.takeWhile numerals.holds
  let kind ← CharClass.ofLetters? (spec.toList.dropWhile numerals.holds)
  if digits.isEmpty then
    return ⟨spec, none, kind⟩
  else
    let width ← read? digits
    return ⟨spec, some width, kind⟩

/-- A hint whose shape is looked at first, and then the number in it. -/
def parseStaged? (numerals : Numerals) (spec : String) : Option Hint :=
  readWith? numerals (fun digits => (readWord? digits).filter (0 < ·)) spec

section Reading

variable {numerals : Numerals} {read? : List Char → Option Nat} {spec : String} {hint : Hint}

theorem takeWhile_spelled {digits letters : List Char} {kind : CharClass}
    (decimal : Text.IsDecimal digits) (spelled : kind.Spelled letters) :
    (digits ++ letters).takeWhile numerals.holds = digits ∧
      (digits ++ letters).dropWhile numerals.holds = letters := by
  have run : ∀ c ∈ digits, numerals.holds c = true := fun c member =>
    numerals.ascii c (decimal c member)
  rw [List.takeWhile_append_of_pos run, List.dropWhile_append_of_pos run]
  cases spelled with
  | absent => exact ⟨List.append_nil _, rfl⟩
  | named named =>
      have behind := numerals.apart _ _ named
      rw [List.takeWhile_cons_of_neg (by simpa using behind),
        List.dropWhile_cons_of_neg (by simpa using behind), List.append_nil]
      exact ⟨rfl, rfl⟩

/-- Whatever runs are let through at first, hints are read from what spells them. -/
theorem readWith?_eq_some_iff
    (reads : ∀ digits width, (∀ c ∈ digits, numerals.holds c = true) →
      (read? digits = some width ↔ IsWidth digits ∧ denoted digits = width)) :
    readWith? numerals read? spec = some hint ↔ Spells spec hint := by
  simp only [readWith?, bind, pure, Option.bind_eq_some_iff, CharClass.ofLetters?_eq_some_iff]
  constructor
  · intro read
    obtain ⟨kind, spelled, read⟩ := read
    have cut := (@List.takeWhile_append_dropWhile _ numerals.holds spec.toList).symm
    split at read
    next empty =>
      cases read
      rw [List.isEmpty_iff.mp empty] at cut
      exact ⟨rfl, _, _, cut, .absent, spelled⟩
    next filled =>
      obtain ⟨width, known, read⟩ := Option.bind_eq_some_iff.mp read
      cases read
      have run := List.all_eq_true.mp (@List.all_takeWhile _ numerals.holds spec.toList)
      obtain ⟨isWidth, rfl⟩ := (reads _ _ run).mp known
      exact ⟨rfl, _, _, cut, .given isWidth, spelled⟩
  · intro spells
    obtain ⟨rfl, digits, letters, cut, front, behind⟩ := spells
    obtain ⟨raw, width, kind⟩ := hint
    refine ⟨kind, ?_⟩
    cases front with
    | absent =>
        obtain ⟨run, rest⟩ := @takeWhile_spelled numerals [] letters kind nofun behind
        rw [cut, run, rest]
        exact ⟨behind, rfl⟩
    | given isWidth =>
        obtain ⟨run, rest⟩ := @takeWhile_spelled numerals digits letters kind isWidth.decimal behind
        have filled : digits.isEmpty = false := by
          cases digits with
          | nil => exact absurd isWidth.positive (by decide)
          | cons => rfl
        have known := (reads digits _ fun c member =>
          numerals.ascii c (isWidth.decimal c member)).mpr ⟨isWidth, rfl⟩
        rw [cut, run, rest, filled, known]
        exact ⟨behind, rfl⟩

/-- A hint is read from exactly the texts that spell it. -/
theorem parse?_eq_some_iff : parse? spec = some hint ↔ Spells spec hint := by
  change readWith? .decimal readWidth? spec = some hint ↔ _
  exact readWith?_eq_some_iff fun digits width run => readWidth?_eq_some_iff run

theorem parseStaged?_eq_parse? (numerals : Numerals) (spec : String) :
    parseStaged? numerals spec = parse? spec := by
  refine Option.ext fun hint => ?_
  rw [parse?_eq_some_iff, parseStaged?]
  exact readWith?_eq_some_iff fun digits width _ => filter_readWord?_eq_some_iff

end Reading

/-- A text spells some hint when it is a possibly empty width and at most one letter of a class. -/
theorem exists_spells_iff {spec : String} : (∃ hint, Spells spec hint) ↔
    ∃ digits letters, spec.toList = digits ++ letters ∧ (digits = [] ∨ IsWidth digits) ∧
      (letters = [] ∨ ∃ letter ∈ ['d', 'l', 'w', 'W', 'S', 'x'], letters = [letter]) := by
  constructor
  · intro spelled
    obtain ⟨⟨raw, width, kind⟩, _, digits, letters, cut, front, behind⟩ := spelled
    refine ⟨digits, letters, cut, ?_, ?_⟩
    · cases front with
      | absent => exact .inl rfl
      | given isWidth => exact .inr isWidth
    · cases behind with
      | absent => exact .inl rfl
      | named named => exact .inr ⟨_, CharClass.exists_letter_iff.mp ⟨_, named⟩, rfl⟩
  · intro parts
    obtain ⟨digits, letters, cut, front, behind⟩ := parts
    obtain ⟨width, front⟩ : ∃ width, WidthSpelled digits width := by
      rcases front with rfl | isWidth
      exacts [⟨none, .absent⟩, ⟨_, .given isWidth⟩]
    obtain ⟨kind, behind⟩ : ∃ kind, CharClass.Spelled letters kind := by
      rcases behind with rfl | ⟨letter, member, rfl⟩
      · exact ⟨.any, .absent⟩
      · obtain ⟨kind, named⟩ := CharClass.exists_letter_iff.mpr member
        exact ⟨kind, .named named⟩
    exact ⟨⟨spec, width, kind⟩, rfl, digits, letters, cut, front, behind⟩

/-- A hint is a run of ASCII digits for a positive machine word, or none, and then at most one
letter of a class. -/
theorem parse?_exact (spec : String) :
    ((∃ hint, parse? spec = some hint) ↔
      ∃ digits letters, spec.toList = digits ++ letters ∧ (digits = [] ∨ IsWidth digits) ∧
        (letters = [] ∨ ∃ letter ∈ ['d', 'l', 'w', 'W', 'S', 'x'], letters = [letter])) ∧
      (∀ hint, parse? spec = some hint ↔ Spells spec hint) ∧
      ∀ numerals, parseStaged? numerals spec = parse? spec := by
  refine ⟨?_, fun hint => parse?_eq_some_iff, fun numerals => parseStaged?_eq_parse? numerals spec⟩
  rw [← exists_spells_iff]
  exact exists_congr fun hint => parse?_eq_some_iff

/-- The greatest width with zeros in front, the number after it, zero, and a digit of a script. -/
example : parse? "0018446744073709551615x" =
      some ⟨"0018446744073709551615x", some (2 ^ 64 - 1), .hex⟩ ∧
    parse? "18446744073709551616" = none ∧ parse? "00d" = none ∧ parse? "1\u0663d" = none := by
  decide +kernel

end Hint

end PathCatalog
