import Mathlib.Data.List.Basic
import PathCatalog.Template.Assignment

namespace PathCatalog

namespace Plan

/-- A way gives every capture a value so that the demands, one after the other, spell the text. -/
inductive Meets : List String → List Demand → List Char → List String → Prop where
  | done {seen : List String} : Meets seen [] [] []
  | text {seen values : List String} {chars after : List Char} {demands : List Demand}
      (rest : Meets seen demands after values) :
      Meets seen (.text chars :: demands) (chars ++ after) values
  | recall {seen values : List String} {index : Nat} {value : String} {after : List Char}
      {demands : List Demand} (known : seen[index]? = some value)
      (rest : Meets seen demands after values) :
      Meets seen (.recall index :: demands) (value.toList ++ after) values
  | capture {seen values : List String} {shape : Shape} {value : String} {after : List Char}
      {demands : List Demand} (admitted : shape.admits value.toList = true)
      (rest : Meets (seen ++ [value]) demands after values) :
      Meets seen (.capture shape :: demands) (value.toList ++ after) (value :: values)

/-- What the captures among the demands accept, in order. -/
def captured : List Demand → List Shape
  | [] => []
  | .capture shape :: rest => shape :: captured rest
  | _ :: rest => captured rest

/-- The preferred one of some ways, or none when there is no way. -/
def Chosen (shapes : List Shape) (ways : List String → Prop) : Option (List String) → Prop
  | none => ∀ values, ¬ ways values
  | some values => ways values ∧
      ∀ other, ways other → other ≠ values → Template.Preferred shapes values other

/-- The lengths that a value of the shape may have at the front, in order of preference. -/
def lengthsOf (shape : Shape) (text : List Char) : List Nat :=
  match shape.width with
  | some width => if standsFirst shape.kind width text then [width] else []
  | none => lengths shape.kind text

/-- The values that some stretches of a candidate hold. -/
def valuesOf (spans : List Span) : List String :=
  spans.map fun span => String.ofList span.value

/-- The first way in the order of preference, every length of a value tried in its turn. -/
def settle : List Demand → List Span → List Char → Answer
  | [], _, text => if text.isEmpty then some [] else none
  | .text chars :: demands, seen, text =>
      if chars.isPrefixOf text then settle demands seen (text.drop chars.length) else none
  | .recall index :: demands, seen, text =>
      match seen[index]? with
      | some span =>
          if span.value.isPrefixOf text then settle demands seen (text.drop span.value.length)
          else none
      | none => none
  | .capture shape :: demands, seen, text =>
      (lengthsOf shape text).findSome? fun length =>
        (settle demands (seen ++ [⟨text, length⟩]) (text.drop length)).map (⟨text, length⟩ :: ·)

@[simp] theorem captured_text (chars : List Char) (rest : List Demand) :
    captured (.text chars :: rest) = captured rest := rfl

@[simp] theorem captured_recall (index : Nat) (rest : List Demand) :
    captured (.recall index :: rest) = captured rest := rfl

@[simp] theorem captured_capture (shape : Shape) (rest : List Demand) :
    captured (.capture shape :: rest) = shape :: captured rest := rfl

@[simp] theorem valuesOf_nil : valuesOf [] = [] := rfl

@[simp] theorem valuesOf_cons (span : Span) (spans : List Span) :
    valuesOf (span :: spans) = String.ofList span.value :: valuesOf spans := rfl

@[simp] theorem valuesOf_append (first second : List Span) :
    valuesOf (first ++ second) = valuesOf first ++ valuesOf second := by
  simp [valuesOf]

theorem valuesOf_getElem? (spans : List Span) (index : Nat) :
    (valuesOf spans)[index]? = spans[index]?.map fun span => String.ofList span.value := by
  simp [valuesOf]

/-- Texts of a class at the front are those no longer than the run of the class there. -/
theorem le_length_takeWhile {accepts : Char → Bool} {length : Nat} {text : List Char} :
    length ≤ (text.takeWhile accepts).length ↔
      length ≤ text.length ∧ (text.take length).all accepts = true := by
  induction text generalizing length with
  | nil => simp
  | cons c rest ih =>
      cases length with
      | zero => simp
      | succ length => by_cases member : accepts c <;> simp [member, ih]

theorem mem_lengths {kind : CharClass} {text : List Char} {length : Nat} :
    length ∈ lengths kind text ↔
      0 < length ∧ length ≤ text.length ∧ (text.take length).all kind.contains = true := by
  have ordered : length ∈ lengths kind text ↔
      length ∈ List.range' 1 (text.takeWhile kind.contains).length := by
    cases kind <;> simp [lengths]
  rw [ordered, ← le_length_takeWhile, List.mem_range'_1]
  omega

/-- The lengths that are tried are those of the values that the shape admits. -/
theorem mem_lengthsOf {shape : Shape} {text : List Char} {length : Nat} :
    length ∈ lengthsOf shape text ↔
      length ≤ text.length ∧ shape.admits (text.take length) = true := by
  obtain ⟨width, kind⟩ := shape
  have filled : (text.take length).isEmpty = false ↔ 0 < length ∧ text ≠ [] := by
    cases text <;> cases length <;> simp
  cases width with
  | none =>
      simp only [lengthsOf, mem_lengths, Shape.admits, Bool.and_true, Bool.and_eq_true,
        Bool.not_eq_true', filled]
      constructor
      · intro holds
        obtain ⟨positive, within, members⟩ := holds
        refine ⟨within, ⟨positive, ?_⟩, members⟩
        intro same
        subst same
        exact absurd within (by simpa using Nat.pos_iff_ne_zero.mp positive)
      · intro holds
        obtain ⟨within, ⟨positive, _⟩, members⟩ := holds
        exact ⟨positive, within, members⟩
  | some width =>
      simp only [lengthsOf, standsFirst, Shape.admits, Bool.and_eq_true, Bool.not_eq_true',
        filled, decide_eq_true_eq, beq_iff_eq, List.length_take]
      constructor
      · intro member
        split at member
        · rename_i stands
          rw [List.mem_singleton] at member
          subst member
          have within : length ≤ text.length := by omega
          refine ⟨within, ⟨⟨stands.1.1, ?_⟩, stands.2⟩, stands.1.2⟩
          intro same
          subst same
          simp at within
          omega
        · simp at member
      · intro holds
        obtain ⟨within, ⟨⟨positive, _⟩, members⟩, size⟩ := holds
        have same : width = length := by omega
        subst same
        simp [positive, members, within]

theorem lengths_of_class {kind : CharClass} (classed : kind ≠ .any) (text : List Char) :
    lengths kind text = (List.range' 1 (text.takeWhile kind.contains).length).reverse := by
  cases kind <;> simp_all [lengths]

theorem better_of_class {kind : CharClass} (classed : kind ≠ .any) (left right : String) :
    Template.Better ⟨none, kind⟩ left right ↔ right.length < left.length := by
  cases kind <;> simp_all [Template.Better]

/-- Of two lengths that are tried, the value of the earlier one is the better one. -/
theorem pairwise_lengthsOf (shape : Shape) (text : List Char) :
    (lengthsOf shape text).Pairwise fun first second =>
      Template.Better shape (String.ofList (text.take first)) (String.ofList (text.take second)) := by
  obtain ⟨width, kind⟩ := shape
  cases width with
  | some width =>
      simp only [lengthsOf]
      split <;> simp
  | none =>
      have ascending : (List.range' 1 (text.takeWhile kind.contains).length).Pairwise (· < ·) :=
        List.pairwise_lt_range' 1
      have lengthOf {length : Nat} (member : length ∈ lengths kind text) :
          (String.ofList (text.take length)).length = length := by
        rw [String.length_ofList, List.length_take]
        have within := (mem_lengths.mp member).2.1
        omega
      change (lengths kind text).Pairwise _
      by_cases plain : kind = .any
      · subst plain
        refine List.Pairwise.imp_of_mem ?_ ascending
        intro first second firstIn secondIn less
        simp only [Template.Better]
        rwa [lengthOf firstIn, lengthOf secondIn]
      · have descending : (lengths kind text).Pairwise (fun first second => second < first) := by
          rw [lengths_of_class plain]
          exact List.pairwise_reverse.mpr ascending
        refine List.Pairwise.imp_of_mem ?_ descending
        intro first second firstIn secondIn less
        rwa [better_of_class plain, lengthOf firstIn, lengthOf secondIn]

theorem meets_nil {seen values : List String} {text : List Char} :
    Meets seen [] text values ↔ text = [] ∧ values = [] := by
  constructor
  · intro way
    cases way
    exact ⟨rfl, rfl⟩
  · intro holds
    obtain ⟨rfl, rfl⟩ := holds
    exact .done

theorem meets_text {seen values : List String} {chars text : List Char} {demands : List Demand} :
    Meets seen (.text chars :: demands) text values ↔
      chars <+: text ∧ Meets seen demands (text.drop chars.length) values := by
  constructor
  · intro way
    cases way with
    | text rest => exact ⟨List.prefix_append _ _, by rwa [List.drop_left]⟩
  · intro holds
    obtain ⟨⟨after, rfl⟩, rest⟩ := holds
    rw [List.drop_left] at rest
    exact .text rest

theorem meets_recall {seen values : List String} {index : Nat} {text : List Char}
    {demands : List Demand} :
    Meets seen (.recall index :: demands) text values ↔
      ∃ value, seen[index]? = some value ∧ value.toList <+: text ∧
        Meets seen demands (text.drop value.length) values := by
  constructor
  · intro way
    cases way with
    | «recall» known rest =>
        refine ⟨_, known, List.prefix_append _ _, ?_⟩
        rwa [← String.length_toList, List.drop_left]
  · intro holds
    obtain ⟨value, known, ⟨after, rfl⟩, rest⟩ := holds
    rw [← String.length_toList, List.drop_left] at rest
    exact .recall known rest

theorem meets_capture_cons {seen values : List String} {shape : Shape} {value : String}
    {text : List Char} {demands : List Demand} :
    Meets seen (.capture shape :: demands) text (value :: values) ↔
      shape.admits value.toList = true ∧ value.toList <+: text ∧
        Meets (seen ++ [value]) demands (text.drop value.length) values := by
  constructor
  · intro way
    cases way with
    | capture admitted rest =>
        refine ⟨admitted, List.prefix_append _ _, ?_⟩
        rwa [← String.length_toList, List.drop_left]
  · intro holds
    obtain ⟨admitted, ⟨after, rfl⟩, rest⟩ := holds
    rw [← String.length_toList, List.drop_left] at rest
    exact .capture admitted rest

theorem not_meets_capture_nil {seen : List String} {shape : Shape} {text : List Char}
    {demands : List Demand} : ¬ Meets seen (.capture shape :: demands) text [] := by
  intro way
  cases way

/-- A way through a capture takes one of the lengths that are tried. -/
theorem meets_capture {seen values : List String} {shape : Shape} {text : List Char}
    {demands : List Demand} :
    Meets seen (.capture shape :: demands) text values ↔
      ∃ length ∈ lengthsOf shape text, ∃ others,
        values = String.ofList (text.take length) :: others ∧
          Meets (seen ++ [String.ofList (text.take length)]) demands (text.drop length) others := by
  constructor
  · intro way
    cases values with
    | nil => exact absurd way not_meets_capture_nil
    | cons value others =>
        obtain ⟨admitted, ⟨after, rfl⟩, rest⟩ := meets_capture_cons.mp way
        rw [← String.length_toList] at rest
        refine ⟨value.toList.length, mem_lengthsOf.mpr ⟨by simp, ?_⟩, others, ?_, ?_⟩
        · rwa [List.take_left]
        · rw [List.take_left, String.ofList_toList]
        · rwa [List.take_left, String.ofList_toList]
  · intro holds
    obtain ⟨length, member, others, rfl, rest⟩ := holds
    obtain ⟨within, admitted⟩ := mem_lengthsOf.mp member
    refine meets_capture_cons.mpr ⟨by rwa [String.toList_ofList], ?_, ?_⟩
    · rw [String.toList_ofList]
      exact List.take_prefix ..
    · rwa [String.length_ofList, List.length_take, Nat.min_eq_left within]

theorem Chosen.congr {shapes : List Shape} {ways others : List String → Prop}
    {answer : Option (List String)} (same : ∀ values, ways values ↔ others values)
    (chosen : Chosen shapes ways answer) : Chosen shapes others answer := by
  rwa [← show ways = others from funext fun values => propext (same values)]

/-- The first length after which the rest can be met gives the preferred way. -/
theorem chosen_capture {seen : List Span} {shape : Shape} {text : List Char}
    {demands : List Demand}
    (later : ∀ seen text, Chosen (captured demands) (Meets (valuesOf seen) demands text)
      ((settle demands seen text).map valuesOf)) :
    Chosen (captured (.capture shape :: demands))
      (Meets (valuesOf seen) (.capture shape :: demands) text)
      ((settle (.capture shape :: demands) seen text).map valuesOf) := by
  refine Chosen.congr (fun values => meets_capture.symm) ?_
  simp only [settle, captured_capture]
  have after (length : Nat) := later (seen ++ [⟨text, length⟩]) (text.drop length)
  simp only [valuesOf_append, valuesOf_cons, valuesOf_nil, Span.value] at after
  cases found : (lengthsOf shape text).findSome? fun length =>
      (settle demands (seen ++ [⟨text, length⟩]) (text.drop length)).map (⟨text, length⟩ :: ·) with
  | none =>
      rintro values ⟨length, member, others, rfl, rest⟩
      have refused := List.findSome?_eq_none_iff.mp found length member
      have none := after length
      rw [Option.map_eq_none_iff.mp refused] at none
      exact none others rest
  | some spans =>
      obtain ⟨before, length, behind, split, way, refused⟩ := List.findSome?_eq_some_iff.mp found
      obtain ⟨rest, settled, rfl⟩ := Option.map_eq_some_iff.mp way
      have chosen := after length
      rw [settled] at chosen
      refine ⟨⟨length, by simp [split], valuesOf rest, rfl, chosen.1⟩, ?_⟩
      rintro other ⟨size, member, others, rfl, met⟩ different
      rw [split, List.mem_append, List.mem_cons] at member
      rcases member with earlier | rfl | later
      · -- an earlier length was refused, so no way starts with it
        have none := after size
        rw [Option.map_eq_none_iff.mp (refused size earlier)] at none
        exact absurd met (none others)
      · exact .later (chosen.2 others met fun same => different (by rw [same]; rfl))
      · have ordered := pairwise_lengthsOf shape text
        rw [split, List.pairwise_append, List.pairwise_cons] at ordered
        exact .here (ordered.2.1.1 size later)

/-- The plain search answers with the preferred way, and with none only when there is no way. -/
theorem settle_chosen (demands : List Demand) (seen : List Span) (text : List Char) :
    Chosen (captured demands) (Meets (valuesOf seen) demands text)
      ((settle demands seen text).map valuesOf) := by
  induction demands generalizing seen text with
  | nil =>
      refine Chosen.congr (fun values => meets_nil.symm) ?_
      cases text with
      | nil => exact ⟨⟨rfl, rfl⟩, fun other way different => absurd way.2 different⟩
      | cons c rest => simp [settle, Chosen]
  | cons demand demands later =>
      cases demand with
      | text chars =>
          refine Chosen.congr (fun values => meets_text.symm) ?_
          by_cases front : chars <+: text
          · simpa [settle, front] using later seen (text.drop chars.length)
          · simp [settle, Chosen, front]
      | «recall» index =>
          refine Chosen.congr (fun values => meets_recall.symm) ?_
          rw [valuesOf_getElem?]
          cases known : seen[index]? with
          | none => simp [settle, Chosen, known]
          | some span =>
              by_cases front : span.value <+: text
              · simpa [settle, known, front] using
                  later seen (text.drop span.value.length)
              · simp [settle, Chosen, known, front]
      | capture shape => exact chosen_capture later

end Plan

end PathCatalog
