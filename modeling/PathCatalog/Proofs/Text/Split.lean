import Mathlib.Data.List.Basic
import PathCatalog.Text.Split

namespace PathCatalog

variable {mark c : Char} {text front : List Char}

theorem splitOn_cons_self : (mark :: text).splitOn mark = [] :: text.splitOn mark := by
  rw [List.splitOn_cons_eq_if_modifyHead, if_pos (beq_self_eq_true mark)]

theorem splitOn_cons_of_ne (different : c ≠ mark) :
    (c :: text).splitOn mark = (text.splitOn mark).modifyHead (c :: ·) := by
  rw [List.splitOn_cons_eq_if_modifyHead, if_neg (by simpa using different)]

theorem splitOn_append_of_not_mem (absent : mark ∉ front) :
    (front ++ text).splitOn mark = (text.splitOn mark).modifyHead (front ++ ·) := by
  induction front with
  | nil =>
      obtain ⟨first, others, parts⟩ := List.exists_cons_of_ne_nil (List.splitOn_ne_nil mark text)
      rw [List.nil_append, parts]
      rfl
  | cons c front ih =>
      rw [List.mem_cons, not_or] at absent
      rw [List.cons_append, splitOn_cons_of_ne (Ne.symm absent.1), ih absent.2,
        List.modifyHead_modifyHead]
      rfl

/-- There is one part more than there are marks. -/
theorem length_splitOn (mark : Char) (text : List Char) :
    (text.splitOn mark).length = text.count mark + 1 := by
  induction text with
  | nil => simp
  | cons c rest ih =>
      by_cases same : c = mark
      · subst same
        rw [splitOn_cons_self, List.length_cons, ih, List.count_cons_self]
      · rw [splitOn_cons_of_ne same, List.length_modifyHead, ih, List.count_cons_of_ne same]

theorem not_mem_of_mem_splitOn {part : List Char} (member : part ∈ text.splitOn mark) :
    mark ∉ part := by
  induction text generalizing part with
  | nil =>
      rw [List.splitOn_nil, List.mem_singleton] at member
      simp [member]
  | cons c rest ih =>
      obtain ⟨first, others, parts⟩ := List.exists_cons_of_ne_nil (List.splitOn_ne_nil mark rest)
      by_cases same : c = mark
      · subst same
        rw [splitOn_cons_self] at member
        rcases List.mem_cons.mp member with rfl | later
        · exact List.not_mem_nil
        · exact ih later
      · rw [splitOn_cons_of_ne same, parts, List.modifyHead_cons] at member
        rw [parts] at ih
        rcases List.mem_cons.mp member with rfl | later
        · rw [List.mem_cons, not_or]
          exact ⟨Ne.symm same, ih (List.mem_cons_self ..)⟩
        · exact ih (List.mem_cons_of_mem _ later)

namespace Text

section Parts

variable {separator : Char} {texts : List String}

theorem toList_joined (separator : Char) (texts : List String) :
    (joined (String.singleton separator) texts).toList =
      [separator].intercalate (texts.map String.toList) := by
  rw [joined, String.toList_intercalate, String.toList_singleton]

/-- Texts without the separator are the parts of the text that they are joined to. -/
theorem parts_joined (whole : ∀ text ∈ texts, separator ∉ text.toList) (filled : texts ≠ []) :
    parts separator (joined (String.singleton separator) texts) = texts := by
  have cut : ([separator].intercalate (texts.map String.toList)).splitOn separator =
      texts.map String.toList :=
    List.splitOn_intercalate separator (List.forall_mem_map.mpr whole) (by simpa using filled)
  have back : String.ofList ∘ String.toList = id := funext fun text => String.ofList_toList
  rw [parts, toList_joined, cut, List.map_map, back, List.map_id]

/-- The parts of a text are joined to it again. -/
theorem joined_parts (separator : Char) (text : String) :
    joined (String.singleton separator) (parts separator text) = text := by
  have back : String.toList ∘ String.ofList = id := funext fun text => String.toList_ofList
  rw [← String.toList_inj, toList_joined, parts, List.map_map, back, List.map_id,
    List.intercalate_splitOn]

theorem parts_ne_nil (text : String) : parts separator text ≠ [] := by
  simp [parts, List.splitOn_ne_nil]

theorem not_mem_of_mem_parts {text part : String} (member : part ∈ parts separator text) :
    separator ∉ part.toList := by
  obtain ⟨chars, inside, rfl⟩ := List.mem_map.mp member
  rw [String.toList_ofList]
  exact not_mem_of_mem_splitOn inside

end Parts

end Text

namespace Text

theorem differs_of_not_mem {separator : Char} {text : List Char} (absent : separator ∉ text) :
    ∀ c ∈ text, (c != separator) = true := by
  intro c member
  have different : c ≠ separator := fun same => absent (same ▸ member)
  simpa using different

theorem cut?_append {separator : Char} {front : List Char} (absent : separator ∉ front)
    (rest : List Char) : cut? separator (front ++ separator :: rest) = some (front, rest) := by
  have others := differs_of_not_mem absent
  simp [cut?, List.dropWhile_append_of_pos others, List.takeWhile_append_of_pos others]

/-- A text without the separator is not cut. -/
theorem cut?_eq_none_iff {separator : Char} {text : List Char} :
    cut? separator text = none ↔ separator ∉ text := by
  constructor
  · intro uncut member
    obtain ⟨front, rest, rfl, absent⟩ := List.eq_append_cons_of_mem member
    rw [cut?_append absent] at uncut
    cases uncut
  · intro absent
    have others : (text ++ []).dropWhile (· != separator) = [] :=
      List.dropWhile_append_of_pos (differs_of_not_mem absent)
    rw [List.append_nil] at others
    simp [cut?, others]

/-- A cut leaves what stands before the first separator and what stands after it. -/
theorem cut?_eq_some_iff {separator : Char} {text front rest : List Char} :
    cut? separator text = some (front, rest) ↔
      separator ∉ front ∧ text = front ++ separator :: rest := by
  constructor
  · intro cut
    by_cases member : separator ∈ text
    · obtain ⟨before, after, rfl, absent⟩ := List.eq_append_cons_of_mem member
      rw [cut?_append absent] at cut
      cases cut
      exact ⟨absent, rfl⟩
    · rw [cut?_eq_none_iff.mpr member] at cut
      cases cut
  · intro holds
    obtain ⟨absent, rfl⟩ := holds
    exact cut?_append absent rest

end Text

end PathCatalog
