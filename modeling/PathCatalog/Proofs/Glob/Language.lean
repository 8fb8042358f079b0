import Mathlib.Data.List.Forall2
import PathCatalog.Glob
import PathCatalog.Proofs.Text.Split

namespace PathCatalog

namespace Component

/-- The segments stand in the text in this order, with any text around them. -/
def Scattered : List (List Char) → List Char → Prop
  | [], _ => True
  | segment :: rest, text =>
      ∃ filling after, text = filling ++ segment ++ after ∧ Scattered rest after

/-- The first segment starts the text and the last one ends it, with any text between neighbours. -/
def Spread : List (List Char) → List Char → Prop
  | [], _ => False
  | [only], text => text = only
  | first :: second :: rest, text =>
      ∃ filling after, text = first ++ filling ++ after ∧ Spread (second :: rest) after

/-- More text in front gives the segments only more room. -/
theorem Scattered.of_suffix {segments : List (List Char)} {text longer : List Char}
    (scattered : Scattered segments text) (ends : text <:+ longer) :
    Scattered segments longer := by
  cases segments with
  | nil => trivial
  | cons segment rest =>
      obtain ⟨filling, after, rfl, others⟩ := scattered
      obtain ⟨front, rfl⟩ := ends
      exact ⟨front ++ filling, after, by simp, others⟩

theorem afterFirst_eq_some {segment text after : List Char}
    (found : afterFirst segment text = some after) :
    ∃ filling, text = filling ++ segment ++ after := by
  induction text with
  | nil =>
      rw [afterFirst] at found
      split at found
      · rename_i empty
        rw [List.isEmpty_iff.mp empty, ← Option.some.inj found]
        exact ⟨[], rfl⟩
      · cases found
  | cons c rest ih =>
      rw [afterFirst] at found
      cases stands : segment.isPrefixOf? (c :: rest) with
      | some behind =>
          rw [stands] at found
          have same := List.isPrefixOf?_eq_some_iff_append_eq.mp stands
          exact ⟨[], by rw [← Option.some.inj found, List.nil_append, same]⟩
      | none =>
          rw [stands] at found
          obtain ⟨filling, split⟩ := ih found
          exact ⟨c :: filling, congrArg (c :: ·) split⟩

/-- Whatever follows an occurrence of a segment also follows the leftmost one. -/
theorem afterFirst_of_occurs (segment filling behind : List Char) :
    ∃ after, afterFirst segment (filling ++ segment ++ behind) = some after ∧ behind <:+ after := by
  induction filling with
  | nil =>
      rw [List.nil_append]
      cases text : segment ++ behind with
      | nil =>
          obtain ⟨rfl, rfl⟩ := List.append_eq_nil_iff.mp text
          exact ⟨[], rfl, List.suffix_rfl⟩
      | cons c rest =>
          have stands := List.isPrefixOf?_eq_some_iff_append_eq.mpr text
          exact ⟨behind, by rw [afterFirst, stands], List.suffix_rfl⟩
  | cons c filling ih =>
      rw [List.cons_append, List.cons_append, afterFirst]
      cases stands : segment.isPrefixOf? (c :: (filling ++ segment ++ behind)) with
      | none => exact ih
      | some after =>
          have same := List.isPrefixOf?_eq_some_iff_append_eq.mp stands
          refine ⟨after, rfl, List.suffix_of_suffix_length_le ?_
            (List.suffix_append segment after) ?_⟩
          · rw [same]
            exact ⟨c :: (filling ++ segment), by simp⟩
          · have sizes := congrArg List.length same
            simp only [List.length_append, List.length_cons] at sizes
            omega

/-- Looking for each segment as far left as it can stand finds every order that there is. -/
theorem inOrder_iff (segments : List (List Char)) (text : List Char) :
    inOrder segments text = true ↔ Scattered segments text := by
  induction segments generalizing text with
  | nil => simp [inOrder, Scattered]
  | cons segment rest ih =>
      rw [inOrder, Scattered]
      constructor
      · intro ordered
        cases found : afterFirst segment text with
        | none => simp [found] at ordered
        | some after =>
            rw [found] at ordered
            obtain ⟨filling, split⟩ := afterFirst_eq_some found
            exact ⟨filling, after, split, (ih after).mp ordered⟩
      · intro holds
        obtain ⟨filling, behind, rfl, others⟩ := holds
        obtain ⟨after, found, ends⟩ := afterFirst_of_occurs segment filling behind
        rw [found]
        exact (ih after).mpr (others.of_suffix ends)

theorem spread_iff {first last : List Char} {inner : List (List Char)} {text : List Char} :
    Spread (first :: (inner ++ [last])) text ↔
      ∃ middle, text = first ++ middle ++ last ∧ Scattered inner middle := by
  induction inner generalizing first text with
  | nil =>
      constructor
      · intro holds
        obtain ⟨filling, after, rfl, rfl⟩ := holds
        exact ⟨filling, rfl, trivial⟩
      · intro holds
        obtain ⟨middle, rfl, _⟩ := holds
        exact ⟨middle, last, rfl, rfl⟩
  | cons segment inner ih =>
      constructor
      · intro holds
        obtain ⟨filling, after, rfl, others⟩ := holds
        obtain ⟨middle, rfl, scattered⟩ := ih.mp others
        exact ⟨filling ++ segment ++ middle, by simp, filling, middle, rfl, scattered⟩
      · intro holds
        obtain ⟨middle, rfl, filling, after, rfl, scattered⟩ := holds
        exact ⟨filling, segment ++ after ++ last, by simp, ih.mpr ⟨after, rfl, scattered⟩⟩

/-- The ends of a text are a first and a last segment when they stand there and do not overlap. -/
theorem ends_iff {first last text : List Char} :
    (first.length + last.length ≤ text.length ∧ first <+: text ∧ last <:+ text) ↔
      ∃ middle, text = first ++ middle ++ last := by
  constructor
  · intro holds
    obtain ⟨fits, ⟨rest, rfl⟩, ends⟩ := holds
    rw [List.length_append] at fits
    obtain ⟨middle, rfl⟩ := List.suffix_of_suffix_length_le ends (List.suffix_append first rest)
      (by omega)
    exact ⟨middle, (List.append_assoc ..).symm⟩
  · intro holds
    obtain ⟨middle, rfl⟩ := holds
    refine ⟨by simp, ?_, List.suffix_append ..⟩
    rw [List.append_assoc]
    exact List.prefix_append ..

/-- Comparing segment by segment decides whether the segments spread over the text. -/
theorem segmentsMatch_iff {segments : List (List Char)} (some : segments ≠ []) (text : List Char) :
    segmentsMatch segments text = true ↔ Spread segments text := by
  match segments with
  | [] => exact absurd rfl some
  | [only] => simp [segmentsMatch, Spread]
  | first :: second :: rest =>
      have parts : second :: rest =
          (second :: rest).dropLast ++ [(second :: rest).getLast (by simp)] :=
        (List.dropLast_append_getLast _).symm
      have spread := @spread_iff first ((second :: rest).getLast (by simp))
        (second :: rest).dropLast text
      rw [← parts] at spread
      rw [spread, segmentsMatch]
      generalize (second :: rest).getLast (by simp) = last
      generalize (second :: rest).dropLast = inner
      simp only [Bool.and_eq_true, decide_eq_true_eq, List.isPrefixOf_iff_prefix,
        List.isSuffixOf_iff_suffix, inOrder_iff]
      constructor
      · intro holds
        obtain ⟨⟨⟨fits, starts⟩, ends⟩, scattered⟩ := holds
        obtain ⟨middle, rfl⟩ := ends_iff.mp ⟨fits, starts, ends⟩
        refine ⟨middle, rfl, ?_⟩
        convert scattered using 1
        simp
      · intro holds
        obtain ⟨middle, rfl, scattered⟩ := holds
        obtain ⟨fits, starts, ends⟩ := ends_iff.mpr ⟨middle, rfl⟩
        refine ⟨⟨⟨fits, starts⟩, ends⟩, ?_⟩
        convert scattered using 1
        simp

/-- A character in front of the first segment stands in front of the text. -/
theorem spread_char {c : Char} {first name : List Char} {others : List (List Char)} :
    Spread ((c :: first) :: others) name ↔
      ∃ after, name = c :: after ∧ Spread (first :: others) after := by
  cases others with
  | nil => simp [Spread]
  | cons second rest =>
      constructor
      · intro holds
        obtain ⟨filling, after, rfl, spread⟩ := holds
        exact ⟨first ++ filling ++ after, rfl, filling, after, rfl, spread⟩
      · intro holds
        obtain ⟨_, rfl, filling, after, rfl, spread⟩ := holds
        exact ⟨filling, after, rfl, spread⟩

/-- A component covers the same names as its segments spread over, none of which has a separator. -/
theorem covers_iff_spread {pattern name : List Char} (inside : separator ∉ name) :
    Glob.Covers pattern name ↔ Spread (pattern.splitOn '*') name := by
  induction pattern generalizing name with
  | nil =>
      rw [List.splitOn_nil]
      constructor
      · intro holds
        cases holds
        rfl
      · intro same
        subst same
        exact .nil
  | cons c pattern ih =>
      obtain ⟨first, others, parts⟩ :=
        List.exists_cons_of_ne_nil (List.splitOn_ne_nil '*' pattern)
      rw [parts] at ih
      by_cases wild : c = '*'
      · subst wild
        rw [splitOn_cons_self, parts]
        constructor
        · intro covers
          cases covers with
          | char plain _ => exact absurd rfl plain
          | @wild _ after filling _ rest =>
              rw [List.mem_append, not_or] at inside
              exact ⟨filling, after, rfl, (ih inside.2).mp rest⟩
        · intro holds
          obtain ⟨filling, after, rfl, spread⟩ := holds
          rw [List.nil_append, List.mem_append, not_or] at inside
          exact .wild filling inside.1 ((ih inside.2).mpr spread)
      · rw [splitOn_cons_of_ne wild, parts, List.modifyHead_cons, spread_char]
        constructor
        · intro covers
          cases covers with
          | wild => exact absurd rfl wild
          | @char _ _ after plain rest =>
              rw [List.mem_cons, not_or] at inside
              exact ⟨after, rfl, (ih inside.2).mp rest⟩
        · intro holds
          obtain ⟨after, rfl, spread⟩ := holds
          rw [List.mem_cons, not_or] at inside
          exact .char wild ((ih inside.2).mpr spread)

/-- A component accepts the names that it covers. -/
theorem accepts_iff_covers {pattern name : List Char} (inside : separator ∉ name) :
    (parse (String.ofList pattern)).accepts (String.ofList name) = true ↔
      Glob.Covers pattern name := by
  rw [covers_iff_spread inside, parse, String.toList_ofList]
  split
  · simp only [accepts, Text.parts, String.toList_ofList, List.map_map]
    rw [show String.toList ∘ String.ofList = id from funext fun chars => String.toList_ofList,
      List.map_id, segmentsMatch_iff (List.splitOn_ne_nil '*' pattern)]
  · rename_i plain
    rw [List.splitOn_eq_singleton (by simpa using plain)]
    simp only [accepts, Spread, beq_iff_eq]
    exact ⟨String.ofList_injective, congrArg String.ofList⟩

end Component

namespace Glob

theorem Covers.append {pattern text patterns texts : List Char} (front : Covers pattern text)
    (back : Covers patterns texts) : Covers (pattern ++ patterns) (text ++ texts) := by
  induction front with
  | nil => exact back
  | char plain _ ih => exact .char plain ih
  | wild filling inside _ ih =>
      rw [List.append_assoc]
      exact .wild filling inside ih

theorem forall₂_modifyHead {related : List Char → List Char → Prop}
    {change other : List Char → List Char} {left right : List (List Char)}
    (all : List.Forall₂ related left right)
    (kept : ∀ first second, related first second → related (change first) (other second)) :
    List.Forall₂ related (left.modifyHead change) (right.modifyHead other) := by
  cases all with
  | nil => exact .nil
  | cons first others => exact .cons (kept _ _ first) others

/-- A covered text has the components that the components of the pattern cover. -/
theorem Covers.splitOn {pattern text : List Char} (covers : Covers pattern text) :
    List.Forall₂ Covers (pattern.splitOn separator) (text.splitOn separator) := by
  induction covers with
  | nil => exact .cons .nil .nil
  | @char c pattern text plain _ ih =>
      by_cases ends : c = separator
      · subst ends
        rw [splitOn_cons_self, splitOn_cons_self]
        exact .cons .nil ih
      · rw [splitOn_cons_of_ne ends, splitOn_cons_of_ne ends]
        exact forall₂_modifyHead ih fun first second covers => .char plain covers
  | @wild pattern text filling inside _ ih =>
      rw [splitOn_cons_of_ne (by decide), splitOn_append_of_not_mem inside]
      exact forall₂_modifyHead ih fun first second covers => .wild filling inside covers

/-- Texts that the components cover one by one are covered together, separators between them. -/
theorem covers_intercalate {patterns texts : List (List Char)}
    (each : List.Forall₂ Covers patterns texts) :
    Covers ([separator].intercalate patterns) ([separator].intercalate texts) := by
  induction each with
  | nil => exact .nil
  | @cons pattern text patterns texts first others ih =>
      cases others with
      | nil => simpa using first
      | cons second rest =>
          rw [List.intercalate_cons_cons, List.intercalate_cons_cons, List.append_assoc,
            List.append_assoc]
          exact first.append (.char (by decide) ih)

theorem covers_iff_forall₂ {pattern text : List Char} :
    Covers pattern text ↔
      List.Forall₂ Covers (pattern.splitOn separator) (text.splitOn separator) := by
  refine ⟨Covers.splitOn, fun each => ?_⟩
  have joined := covers_intercalate each
  rwa [List.intercalate_splitOn, List.intercalate_splitOn] at joined

theorem acceptsAll_iff {components : List Component} {names : List String} :
    acceptsAll components names = true ↔
      List.Forall₂ (fun component name => component.accepts name = true) components names := by
  induction components generalizing names with
  | nil => cases names <;> simp [acceptsAll]
  | cons component components ih => cases names <;> simp [acceptsAll, ih]

/-- A pattern accepts exactly the candidates that it covers. -/
theorem accepts_iff_covers (pattern candidate : String) :
    (parse pattern).accepts candidate = true ↔ Covers pattern.toList candidate.toList := by
  rw [accepts, parse, acceptsAll_iff, Text.parts, Text.parts, List.map_map,
    List.forall₂_map_left_iff, List.forall₂_map_right_iff, covers_iff_forall₂,
    List.forall₂_iff_zip, List.forall₂_iff_zip]
  have each {part name : List Char}
      (pair : (part, name) ∈
        (pattern.toList.splitOn separator).zip (candidate.toList.splitOn separator)) :
      (Component.parse (String.ofList part)).accepts (String.ofList name) = true ↔
        Covers part name :=
    Component.accepts_iff_covers (not_mem_of_mem_splitOn (List.of_mem_zip pair).2)
  exact and_congr_right fun _ =>
    ⟨fun all part name pair => (each pair).mp (all pair),
      fun all part name pair => (each pair).mpr (all pair)⟩

end Glob

end PathCatalog
