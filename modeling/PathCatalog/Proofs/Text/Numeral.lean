import Mathlib.Algebra.Order.Ring.Nat
import Mathlib.Data.Char
import Mathlib.Data.List.Basic
import Mathlib.Order.Compare
import Mathlib.Tactic.Ring
import PathCatalog.Proofs.Text.Natural
import PathCatalog.Template.Hint

namespace PathCatalog.Text

/-- The number that a decimal digit stands for. -/
def digitValue (c : Char) : Nat :=
  c.toNat - '0'.toNat

/-- ASCII digits only. -/
def IsDecimal (digits : List Char) : Prop :=
  ∀ c ∈ digits, c.isDigit = true

instance (digits : List Char) : Decidable (IsDecimal digits) :=
  List.decidableBAll _ digits

section Digits

variable {c : Char} {digits left right : List Char}

theorem isDecimal_cons : IsDecimal (c :: digits) ↔ c.isDigit = true ∧ IsDecimal digits :=
  List.forall_mem_cons

theorem toNat_of_isDigit (digit : c.isDigit = true) : 48 ≤ c.toNat ∧ c.toNat ≤ 57 := by
  simpa [Char.isDigit, UInt32.le_iff_toNat_le] using digit

theorem digitValue_lt (digit : c.isDigit = true) : digitValue c < 10 := by
  have bounds := toNat_of_isDigit digit
  have zero : '0'.toNat = 48 := rfl
  unfold digitValue
  omega

theorem compare_digits {other : Char} (first : c.isDigit = true) (second : other.isDigit = true) :
    compare c other = compare (digitValue c) (digitValue other) := by
  have bounds := toNat_of_isDigit first
  have bounds' := toNat_of_isDigit second
  have zero : '0'.toNat = 48 := rfl
  rcases lt_trichotomy c other with less | rfl | more
  · have smaller : c.toNat < other.toNat := less
    rw [compare_lt_iff_lt.mpr less, eq_comm, compare_lt_iff_lt]
    unfold digitValue
    omega
  · simp
  · have larger : other.toNat < c.toNat := more
    rw [compare_gt_iff_gt.mpr more, eq_comm, compare_gt_iff_gt]
    unfold digitValue
    omega

theorem foldl_digits (value : Nat) :
    digits.foldl (fun value digit => 10 * value + (digit.toNat - '0'.toNat)) value =
      value * 10 ^ digits.length + digitsValue digits := by
  unfold digitsValue
  induction digits generalizing value with
  | nil => simp
  | cons c rest ih =>
      rw [List.foldl_cons, List.foldl_cons, ih, ih (10 * 0 + _), List.length_cons]
      ring

theorem digitsValue_cons :
    digitsValue (c :: digits) = digitValue c * 10 ^ digits.length + digitsValue digits := by
  rw [digitsValue, List.foldl_cons, foldl_digits, digitValue]
  simp

theorem digitsValue_lt (decimal : IsDecimal digits) :
    digitsValue digits < 10 ^ digits.length := by
  induction digits with
  | nil => simp [digitsValue]
  | cons c rest ih =>
      obtain ⟨digit, others⟩ := isDecimal_cons.mp decimal
      have small : digitValue c + 1 ≤ 10 := digitValue_lt digit
      calc digitsValue (c :: rest)
          = digitValue c * 10 ^ rest.length + digitsValue rest := digitsValue_cons
        _ < digitValue c * 10 ^ rest.length + 10 ^ rest.length := by
            exact Nat.add_lt_add_left (ih others) _
        _ = (digitValue c + 1) * 10 ^ rest.length := by ring
        _ ≤ 10 * 10 ^ rest.length := Nat.mul_le_mul_right _ small
        _ = 10 ^ (c :: rest).length := by rw [List.length_cons]; ring

/-- Zeros at the front do not change the number. -/
theorem digitsValue_dropWhile :
    digitsValue (digits.dropWhile (· == '0')) = digitsValue digits := by
  induction digits with
  | nil => rfl
  | cons c rest ih =>
      by_cases zero : c = '0'
      · subst zero
        rw [List.dropWhile_cons_of_pos (by rfl), ih, digitsValue_cons]
        simp [digitValue]
      · rw [List.dropWhile_cons_of_neg (by simpa using zero)]

/-- Two digits decide before what follows them, which is smaller than their unit. -/
theorem compare_positional {unit high low high' low' : Nat} (fits : low < unit)
    (fits' : low' < unit) :
    compare (high * unit + low) (high' * unit + low') =
      (compare high high').then (compare low low') := by
  rcases lt_trichotomy high high' with less | rfl | more
  · have carried : (high + 1) * unit ≤ high' * unit := Nat.mul_le_mul_right unit less
    rw [Nat.succ_mul] at carried
    have smaller : high * unit + low < high' * unit + low' := by omega
    rw [compare_lt_iff_lt.mpr less, compare_lt_iff_lt.mpr smaller]
    rfl
  · rw [compare_eq_iff_eq.mpr rfl, Ordering.eq_then, Nat.compare_eq_ite_lt, Nat.compare_eq_ite_lt]
    simp
  · have carried : (high' + 1) * unit ≤ high * unit := Nat.mul_le_mul_right unit more
    rw [Nat.succ_mul] at carried
    have larger : high' * unit + low' < high * unit + low := by omega
    rw [compare_gt_iff_gt.mpr more, compare_gt_iff_gt.mpr larger]
    rfl

/-- Digit texts of one length compare as their numbers. -/
theorem comparePlain_eq_compare (first : IsDecimal left) (second : IsDecimal right)
    (same : left.length = right.length) :
    comparePlain left right = compare (digitsValue left) (digitsValue right) := by
  induction left generalizing right with
  | nil =>
      obtain rfl := List.length_eq_zero_iff.mp same.symm
      simp [comparePlain]
  | cons c left ih =>
      cases right with
      | nil => cases same
      | cons other right =>
          obtain ⟨digit, decimal⟩ := isDecimal_cons.mp first
          obtain ⟨digit', decimal'⟩ := isDecimal_cons.mp second
          have length : left.length = right.length := Nat.succ.inj same
          have fits : digitsValue right < 10 ^ left.length := by
            rw [length]
            exact digitsValue_lt decimal'
          rw [comparePlain, ih decimal decimal' length, compare_digits digit digit',
            digitsValue_cons, digitsValue_cons, ← length,
            compare_positional (digitsValue_lt decimal) fits]

/-- A number of more digits is larger when its first digit is not zero. -/
theorem digitsValue_lt_of_length (first : IsDecimal left) (filled : right.head? ≠ some '0')
    (second : IsDecimal right) (shorter : left.length < right.length) :
    digitsValue left < digitsValue right := by
  cases right with
  | nil => cases shorter
  | cons c right =>
      obtain ⟨digit, _⟩ := isDecimal_cons.mp second
      have positive : 1 ≤ digitValue c := by
        have bounds := toNat_of_isDigit digit
        have nonzero : c.toNat ≠ '0'.toNat := fun same =>
          filled (congrArg some (Char.toNat_inj.mp same))
        have zero : '0'.toNat = 48 := rfl
        unfold digitValue
        omega
      calc digitsValue left
          < 10 ^ left.length := digitsValue_lt first
        _ ≤ 10 ^ right.length := Nat.pow_le_pow_right (by decide) (Nat.le_of_lt_succ shorter)
        _ ≤ digitValue c * 10 ^ right.length := Nat.le_mul_of_pos_left _ positive
        _ ≤ digitsValue (c :: right) := by
            rw [digitsValue_cons]
            exact Nat.le_add_right _ _

theorem head?_dropWhile_zero : (digits.dropWhile (· == '0')).head? ≠ some '0' := by
  intro same
  have kept := List.head?_dropWhile_not (· == '0') digits
  simp [same] at kept

/-- Digit texts compare as the numbers that they denote. -/
theorem compareDigits_eq_compare (first : IsDecimal left) (second : IsDecimal right) :
    compareDigits left right = compare (digitsValue left) (digitsValue right) := by
  have stripped {digits : List Char} (decimal : IsDecimal digits) :
      IsDecimal (digits.dropWhile (· == '0')) := fun c member =>
    decimal c (List.dropWhile_subset _ member)
  rw [← @digitsValue_dropWhile left, ← @digitsValue_dropWhile right, compareDigits]
  have filled := @head?_dropWhile_zero left
  have filled' := @head?_dropWhile_zero right
  have decimal := stripped first
  have decimal' := stripped second
  generalize left.dropWhile (· == '0') = left at *
  generalize right.dropWhile (· == '0') = right at *
  rcases lt_trichotomy left.length right.length with less | same | more
  · rw [compare_lt_iff_lt.mpr less,
      compare_lt_iff_lt.mpr (digitsValue_lt_of_length decimal filled' decimal' less)]
    rfl
  · rw [compare_eq_iff_eq.mpr same, Ordering.eq_then,
      comparePlain_eq_compare decimal decimal' same]
  · rw [compare_gt_iff_gt.mpr more,
      compare_gt_iff_gt.mpr (digitsValue_lt_of_length decimal' filled decimal more)]
    rfl

end Digits

/-- A character joins the first run when it is of its kind, or makes a run of its own. -/
def lead (c : Char) (others : List Run) : List Run :=
  match others, c.isDigit with
  | .number digits :: more, true => .number (c :: digits) :: more
  | .words chars :: more, false => .words (c :: chars) :: more
  | others, _ => Run.single c :: others

theorem runs_cons (c : Char) (rest : List Char) : runs (c :: rest) = lead c (runs rest) :=
  rfl

/-- Whether a run is one of digits. -/
def Run.isNumber : Run → Bool
  | .number _ => true
  | .words _ => false

theorem Run.isNumber_single (c : Char) : (Run.single c).isNumber = c.isDigit := by
  cases digit : c.isDigit <;> simp [Run.single, Run.isNumber, digit]

/-- The first run is of the kind of the first character. -/
theorem exists_lead (c : Char) (others : List Run) :
    ∃ run more, lead c others = run :: more ∧ run.isNumber = c.isDigit := by
  unfold lead
  split
  next digits more digit => exact ⟨_, _, rfl, digit.symm⟩
  next chars more digit => exact ⟨_, _, rfl, digit.symm⟩
  next => exact ⟨_, _, rfl, Run.isNumber_single c⟩

/-- A run of the other kind is not joined. -/
theorem lead_of_ne {c : Char} {run : Run} {more : List Run} (apart : c.isDigit ≠ run.isNumber) :
    lead c (run :: more) = Run.single c :: run :: more := by
  unfold lead
  cases run <;> cases digit : c.isDigit <;> simp_all [Run.isNumber]

/-- Only the first run matters to a character in front of it. -/
theorem lead_append (c : Char) {front : List Run} (some : front ≠ []) (back : List Run) :
    lead c (front ++ back) = lead c front ++ back := by
  obtain ⟨run, more, rfl⟩ := List.exists_cons_of_ne_nil some
  unfold lead
  cases run <;> cases c.isDigit <;> rfl

theorem runs_ne_nil {c : Char} {rest : List Char} : runs (c :: rest) ≠ [] := by
  obtain ⟨run, more, led, _⟩ := exists_lead c (runs rest)
  rw [runs_cons, led]
  exact List.cons_ne_nil _ _

/-- A text ends in a run where the next text begins with a character of the other kind. -/
def Apart (front back : List Char) : Prop :=
  ∀ c ∈ front.getLast?, ∀ d ∈ back.head?, c.isDigit ≠ d.isDigit

/-- Texts that are apart have the runs of both. -/
theorem runs_append {front back : List Char} (apart : Apart front back) :
    runs (front ++ back) = runs front ++ runs back := by
  induction front with
  | nil => rfl
  | cons c rest ih =>
      cases rest with
      | nil =>
          cases back with
          | nil => rfl
          | cons d back =>
              obtain ⟨run, more, led, kind⟩ := exists_lead d (runs back)
              have other : c.isDigit ≠ run.isNumber := by
                rw [kind]
                exact apart c rfl d rfl
              rw [List.singleton_append, runs_cons, runs_cons d, led, lead_of_ne other]
              rfl
      | cons next rest =>
          have later : Apart (next :: rest) back := fun last ends => apart last (by simpa using ends)
          rw [List.cons_append, runs_cons, ih later, lead_append c runs_ne_nil, ← runs_cons]

/-- Digits are one run. -/
theorem runs_decimal {digits : List Char} (some : digits ≠ []) (decimal : IsDecimal digits) :
    runs digits = [.number digits] := by
  induction digits with
  | nil => exact absurd rfl some
  | cons c rest ih =>
      obtain ⟨digit, others⟩ := isDecimal_cons.mp decimal
      cases rest with
      | nil => simp [runs, Run.single, digit]
      | cons next rest => simp [runs_cons, ih (List.cons_ne_nil _ _) others, lead, digit]

/-- Runs that both texts begin with do not decide. -/
theorem compareRuns_append (front left right : List Run) :
    compareRuns (front ++ left) (front ++ right) = compareRuns left right := by
  induction front with
  | nil => rfl
  | cons run front ih =>
      have equal : run.compare run = .eq := Std.ReflCmp.compare_self
      rw [List.cons_append, List.cons_append, compareRuns, equal, Ordering.eq_then, ih]

/-- Digits that are a whole run of a text: no other digit stands right before or behind them. -/
structure Embedded (front digits back : String) : Prop where
  filled : digits ≠ ""
  decimal : IsDecimal digits.toList
  before : ∀ c ∈ front.toList.getLast?, c.isDigit = false
  behind : ∀ c ∈ back.toList.head?, c.isDigit = false

instance (front digits back : String) : Decidable (Embedded front digits back) :=
  decidable_of_iff (digits ≠ "" ∧ IsDecimal digits.toList ∧
    front.toList.getLast?.all (fun c => !c.isDigit) = true ∧
      back.toList.head?.all (fun c => !c.isDigit) = true) <| by
    simp only [Option.all_eq_true, Bool.not_eq_true']
    exact ⟨fun holds => ⟨holds.1, holds.2.1, holds.2.2.1, holds.2.2.2⟩,
      fun embedded => ⟨embedded.filled, embedded.decimal, embedded.before, embedded.behind⟩⟩

/-- The text has the runs of what stands before the digits, then the digits, then those behind. -/
theorem Embedded.runs_eq {front digits back : String} (embedded : Embedded front digits back) :
    runs (front ++ digits ++ back).toList =
      runs front.toList ++ .number digits.toList :: runs back.toList := by
  have some : digits.toList ≠ [] := by simpa using embedded.filled
  have opening : Apart front.toList (digits.toList ++ back.toList) := by
    intro c ends d begins
    have digit : d ∈ digits.toList := by
      rw [List.head?_append_of_ne_nil _ some] at begins
      exact List.mem_of_head? begins
    rw [embedded.before c ends, embedded.decimal d digit]
    decide
  have closing : Apart digits.toList back.toList := by
    intro c ends d begins
    rw [embedded.decimal c (List.mem_of_getLast? ends), embedded.behind d begins]
    decide
  rw [String.append_assoc, String.toList_append, String.toList_append, runs_append opening,
    runs_append closing, runs_decimal some embedded.decimal, List.singleton_append]

/-- Of two texts alike up to runs of digits, the one with the smaller number comes first, whatever
follows. -/
theorem naturalCompare_embedded {front digits others back rest : String}
    (first : Embedded front digits back) (second : Embedded front others rest)
    (different : digitsValue digits.toList ≠ digitsValue others.toList) :
    naturalCompare (front ++ digits ++ back) (front ++ others ++ rest) =
      if digitsValue digits.toList < digitsValue others.toList then .lt else .gt := by
  rw [naturalCompare, first.runs_eq, second.runs_eq, compareRuns_append, compareRuns, Run.compare,
    compareDigits_eq_compare first.decimal second.decimal]
  rcases lt_or_gt_of_ne different with less | more
  · rw [compare_lt_iff_lt.mpr less, if_pos less]
    rfl
  · rw [compare_gt_iff_gt.mpr more, if_neg (Nat.lt_asymm more)]
    rfl

/-- A longer run may denote the smaller number, and numbers may be too large for a machine word. -/
theorem naturalCompare_embedded_beyond_words :
    Embedded "/data/r" "00099999999999999999999999" "i1" ∧
      Embedded "/data/r" "100000000000000000000000" "" ∧
      naturalCompare ("/data/r" ++ "00099999999999999999999999" ++ "i1")
        ("/data/r" ++ "100000000000000000000000" ++ "") = .lt := by
  have first : Embedded "/data/r" "00099999999999999999999999" "i1" := by decide +kernel
  have second : Embedded "/data/r" "100000000000000000000000" "" := by decide +kernel
  have less : digitsValue "00099999999999999999999999".toList <
      digitsValue "100000000000000000000000".toList := by decide +kernel
  refine ⟨first, second, ?_⟩
  rw [naturalCompare_embedded first second (Nat.ne_of_lt less), if_pos less]

end PathCatalog.Text
