import Mathlib.Data.List.Basic
import PathCatalog.Proofs.Matching.Ways

namespace PathCatalog

namespace Plan

/-- No demand repeats a value. -/
def Unrepeated (demands : List Demand) : Prop :=
  ∀ index, Demand.recall index ∉ demands

/-- No capture demands an empty value. -/
def Sized (demands : List Demand) : Prop :=
  ∀ shape, Demand.capture shape ∈ demands → shape.width ≠ some 0

/-- Without repetitions the values that were already seen do not matter. -/
theorem settle_of_unrepeated {demands : List Demand} (unrepeated : Unrepeated demands)
    (seen : List Span) (text : List Char) : settle demands seen text = settle demands [] text := by
  suffices same : ∀ first second, settle demands first text = settle demands second text from
    same seen []
  induction demands generalizing text with
  | nil => intro first second; rfl
  | cons demand demands ih =>
      intro first second
      have others : Unrepeated demands := fun index member =>
        unrepeated index (List.mem_cons_of_mem _ member)
      cases demand with
      | text chars => simp only [settle, ih others _ first second]
      | «recall» index => exact absurd (List.mem_cons_self ..) (unrepeated index)
      | capture shape =>
          have each (length : Nat) := ih others (text.drop length)
            (first ++ [⟨text, length⟩]) (second ++ [⟨text, length⟩])
          simp only [settle, each]

/-- The answer some places ahead belongs to the text from there on. -/
theorem here_drop_suffixes (answer : List Char → Answer) {text : List Char} {places : Nat}
    (within : places ≤ text.length) :
    here (((suffixes text).map answer).drop places) = answer (text.drop places) := by
  induction text generalizing places with
  | nil =>
      have none : places = 0 := Nat.le_zero.mp within
      subst none
      rfl
  | cons c rest ih =>
      cases places with
      | zero => rfl
      | succ places => exact ih (Nat.le_of_succ_le_succ within)

theorem here_suffixes (answer : List Char → Answer) (text : List Char) :
    here ((suffixes text).map answer) = answer text :=
  here_drop_suffixes answer (Nat.zero_le _)

theorem answers_nil (seen : List Span) (text : List Char) :
    answers [] text = (suffixes text).map (settle [] seen) := by
  induction text with
  | nil => rfl
  | cons c rest ih => simpa [answers, suffixes, settle] using ih

theorem throughText_suffixes (chars : List Char) (answer : List Char → Answer) (text : List Char) :
    throughText chars text ((suffixes text).map answer) =
      (suffixes text).map fun after =>
        if chars.isPrefixOf after then answer (after.drop chars.length) else none := by
  induction text with
  | nil => cases chars <;> rfl
  | cons c rest ih =>
      have front : (if chars.isPrefixOf (c :: rest) then
            here (((suffixes (c :: rest)).map answer).drop chars.length) else none) =
          if chars.isPrefixOf (c :: rest) then answer ((c :: rest).drop chars.length) else none := by
        split
        · rename_i starts
          exact here_drop_suffixes answer (List.isPrefixOf_iff_prefix.mp starts).length_le
        · rfl
      rw [throughText, front]
      exact congrArg (_ :: ·) ih

/-- The first of some lengths after which the rest can be met, with the way to meet it. -/
def firstRun (lengths : List Nat) (answer : Nat → Answer) : Option (Nat × List Span) :=
  lengths.findSome? fun length => (answer length).map fun spans => (length, spans)

theorem firstRun_cons (length : Nat) (lengths : List Nat) (answer : Nat → Answer) :
    firstRun (length :: lengths) answer =
      match answer length with
      | some spans => some (length, spans)
      | none => firstRun lengths answer := by
  cases met : answer length <;> simp [firstRun, met]

theorem firstRun_append (first second : List Nat) (answer : Nat → Answer) :
    firstRun (first ++ second) answer = (firstRun first answer).or (firstRun second answer) :=
  List.findSome?_append

/-- One character more in front makes every run one longer. -/
theorem firstRun_succ (lengths : List Nat) (answer : Nat → Answer) :
    firstRun (lengths.map (· + 1)) answer =
      (firstRun lengths fun length => answer (length + 1)).map fun run => (run.1 + 1, run.2) := by
  induction lengths with
  | nil => rfl
  | cons length lengths ih =>
      rw [List.map_cons, firstRun_cons, firstRun_cons]
      cases answer (length + 1) with
      | none => exact ih
      | some spans => rfl

/-- The lengths of a class at the front of a text, the shorter ones first. -/
def risingLengths (kind : CharClass) (text : List Char) : List Nat :=
  List.range' 1 (text.takeWhile kind.contains).length

theorem risingLengths_cons_of_mem {kind : CharClass} {c : Char} (member : kind.contains c = true)
    (rest : List Char) :
    risingLengths kind (c :: rest) = 1 :: (risingLengths kind rest).map (· + 1) := by
  have longer : ((c :: rest).takeWhile kind.contains).length =
      (rest.takeWhile kind.contains).length + 1 := by
    simp [member]
  have shifted := List.map_add_range' (a := 1) 1 (rest.takeWhile kind.contains).length 1
  simp only [Nat.add_comm 1] at shifted
  rw [risingLengths, longer, List.range'_succ, risingLengths, shifted]

theorem risingLengths_cons_of_not_mem {kind : CharClass} {c : Char}
    (other : kind.contains c = false) (rest : List Char) :
    risingLengths kind (c :: rest) = [] := by
  simp [risingLengths, other]

theorem shortest_suffixes (kind : CharClass) (answer : List Char → Answer) (text : List Char) :
    shortest kind text ((suffixes text).map answer) =
      (suffixes text).map fun after =>
        firstRun (risingLengths kind after) fun length => answer (after.drop length) := by
  induction text with
  | nil => rfl
  | cons c rest ih =>
      have first : (((suffixes rest).map fun after =>
          firstRun (risingLengths kind after) fun length => answer (after.drop length)).headD
            none) = firstRun (risingLengths kind rest) fun length => answer (rest.drop length) := by
        cases rest <;> rfl
      simp only [shortest, suffixes, List.map_cons, List.tail_cons, ih, first, here_suffixes]
      refine congrArg (· :: _) ?_
      cases member : kind.contains c with
      | false => simp [risingLengths_cons_of_not_mem member, firstRun]
      | true =>
          rw [risingLengths_cons_of_mem member, firstRun_cons, firstRun_succ, if_pos rfl]
          rfl

theorem longest_suffixes (kind : CharClass) (answer : List Char → Answer) (text : List Char) :
    longest kind text ((suffixes text).map answer) =
      (suffixes text).map fun after =>
        firstRun (risingLengths kind after).reverse fun length => answer (after.drop length) := by
  induction text with
  | nil => rfl
  | cons c rest ih =>
      have first : (((suffixes rest).map fun after => firstRun (risingLengths kind after).reverse
          fun length => answer (after.drop length)).headD none) =
          firstRun (risingLengths kind rest).reverse fun length => answer (rest.drop length) := by
        cases rest <;> rfl
      simp only [longest, suffixes, List.map_cons, List.tail_cons, ih, first, here_suffixes]
      refine congrArg (· :: _) ?_
      cases member : kind.contains c with
      | false => simp [risingLengths_cons_of_not_mem member, firstRun]
      | true =>
          rw [risingLengths_cons_of_mem member, List.reverse_cons, ← List.map_reverse,
            firstRun_append, firstRun_succ, firstRun_cons, if_pos rfl]
          simp only [List.drop_succ_cons, List.drop_zero]
          cases firstRun (risingLengths kind rest).reverse fun length => answer (rest.drop length)
            with
          | none => cases answer rest <;> rfl
          | some run => rfl

theorem runLengths_eq (kind : CharClass) (text : List Char) :
    runLengths kind text =
      (suffixes text).map fun after => (after.takeWhile kind.contains).length := by
  induction text with
  | nil => rfl
  | cons c rest ih =>
      have first : (((suffixes rest).map fun after =>
          (after.takeWhile kind.contains).length).headD 0) =
            (rest.takeWhile kind.contains).length := by
        cases rest <;> rfl
      simp only [runLengths, suffixes, List.map_cons, ih, first]
      by_cases member : kind.contains c <;> simp [member]

theorem exactly_suffixes (kind : CharClass) (width : Nat) (answer : List Char → Answer)
    (text : List Char) :
    exactly width (runLengths kind text) (((suffixes text).map answer).drop width) =
      (suffixes text).map fun after =>
        if width ≤ (after.takeWhile kind.contains).length then
          (answer (after.drop width)).map fun spans => (width, spans)
        else none := by
  have front (text : List Char) :
      (if width ≤ (text.takeWhile kind.contains).length then
        (here (((suffixes text).map answer).drop width)).map fun spans => (width, spans)
      else none) =
      if width ≤ (text.takeWhile kind.contains).length then
        (answer (text.drop width)).map fun spans => (width, spans)
      else none := by
    split
    · rename_i long
      rw [here_drop_suffixes answer (le_length_takeWhile.mp long).1]
    · rfl
  rw [runLengths_eq]
  induction text with
  | nil => exact congrArg ([·]) (front [])
  | cons c rest ih =>
      simp only [suffixes, List.map_cons, exactly]
      refine congrArg₂ List.cons (front (c :: rest)) ?_
      rw [← ih, List.tail_drop]
      rfl

/-- A width is tried where the run of the class is long enough. -/
theorem standsFirst_iff {kind : CharClass} {width : Nat} {text : List Char} (sized : width ≠ 0) :
    standsFirst kind width text = true ↔ width ≤ (text.takeWhile kind.contains).length := by
  have positive : 0 < width := Nat.pos_of_ne_zero sized
  simp only [standsFirst, le_length_takeWhile, Bool.and_eq_true, decide_eq_true_eq, beq_iff_eq,
    List.length_take, positive, true_and]
  exact and_congr_left fun _ => by omega

theorem throughRun_of_class {kind : CharClass} (classed : kind ≠ .any) (text : List Char)
    (next : List Answer) : throughRun ⟨none, kind⟩ text next = longest kind text next := by
  cases kind <;> simp_all [throughRun]

/-- From every place the lengths of the shape are tried in the order of preference. -/
theorem throughRun_suffixes {shape : Shape} (sized : shape.width ≠ some 0)
    (answer : List Char → Answer) (text : List Char) :
    throughRun shape text ((suffixes text).map answer) =
      (suffixes text).map fun after =>
        firstRun (lengthsOf shape after) fun length => answer (after.drop length) := by
  obtain ⟨width, kind⟩ := shape
  cases width with
  | none =>
      by_cases plain : kind = .any
      · subst plain
        exact shortest_suffixes .any answer text
      · simp only [throughRun_of_class plain, longest_suffixes, lengthsOf, lengths_of_class plain]
        rfl
  | some width =>
      have positive : width ≠ 0 := fun zero => sized (congrArg some zero)
      simp only [throughRun, exactly_suffixes, lengthsOf, standsFirst_iff positive]
      refine List.map_congr_left fun after _ => ?_
      split
      · rw [firstRun_cons]
        cases answer (after.drop width) <;> rfl
      · rfl

/-- A run named by its length is the stretch that starts at its place. -/
theorem placed_suffixes (run : List Char → Option (Nat × List Span)) (text : List Char) :
    placed text ((suffixes text).map run) =
      (suffixes text).map fun after =>
        (run after).map fun found => ⟨after, found.1⟩ :: found.2 := by
  induction text with
  | nil => rfl
  | cons c rest ih => exact congrArg (_ :: ·) ih

/-- The plain search for a value puts its stretch in front of the way to meet the rest. -/
theorem settle_capture {demands : List Demand} (unrepeated : Unrepeated demands) (shape : Shape)
    (text : List Char) :
    settle (.capture shape :: demands) [] text =
      (firstRun (lengthsOf shape text) fun length => settle demands [] (text.drop length)).map
        fun found => ⟨text, found.1⟩ :: found.2 := by
  simp only [settle, settle_of_unrepeated unrepeated]
  induction lengthsOf shape text with
  | nil => rfl
  | cons length lengths ih =>
      rw [firstRun_cons, List.findSome?_cons, ih]
      cases settle demands [] (text.drop length) <;> rfl

/-- The stored answers are those of the plain search, from every place of the text. -/
theorem answers_eq {demands : List Demand} (unrepeated : Unrepeated demands)
    (sized : Sized demands) (text : List Char) :
    answers demands text = (suffixes text).map (settle demands []) := by
  induction demands generalizing text with
  | nil => exact answers_nil [] text
  | cons demand demands ih =>
      have others : Unrepeated demands := fun index member =>
        unrepeated index (List.mem_cons_of_mem _ member)
      have later := ih others (fun shape member => sized shape (List.mem_cons_of_mem _ member)) text
      cases demand with
      | text chars =>
          rw [answers, later, throughText_suffixes]
          rfl
      | «recall» index => exact absurd (List.mem_cons_self ..) (unrepeated index)
      | capture shape =>
          rw [answers, later, throughRun_suffixes (sized shape (List.mem_cons_self ..)),
            placed_suffixes]
          exact List.map_congr_left fun after _ => (settle_capture others shape after).symm

end Plan

end PathCatalog
