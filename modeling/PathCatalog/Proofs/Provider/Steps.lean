import PathCatalog.Proofs.Glob.Language
import PathCatalog.Provider.Selection

namespace PathCatalog

/-- A separator parts what stands before it from what comes after it. -/
theorem Text.parts_append (front back : String) :
    parts separator (front ++ "/" ++ back) = parts separator front ++ parts separator back := by
  have joined : (front ++ "/" ++ back).toList = front.toList ++ separator :: back.toList := by
    simp [String.toList_append, separator]
  unfold parts
  rw [joined, List.splitOn_append_cons_self, List.map_append]

theorem Text.parts_concat (text : String) :
    parts separator (text ++ "/") = parts separator text ++ [""] := by
  have cut := parts_append text ""
  rwa [String.append_empty] at cut

theorem endsInSeparator_iff {text : String} :
    endsInSeparator text = true ↔ ∃ front, text = front ++ "/" := by
  rw [endsInSeparator, beq_iff_eq, List.getLast?_eq_some_iff]
  constructor
  · intro holds
    obtain ⟨front, cut⟩ := holds
    refine ⟨String.ofList front, String.toList_injective ?_⟩
    rw [cut, String.toList_append, String.toList_ofList]
    rfl
  · intro holds
    obtain ⟨front, rfl⟩ := holds
    exact ⟨front.toList, String.toList_append⟩

namespace Glob

theorem parts_eq_steps (pattern : String) :
    Text.parts separator pattern =
      steps pattern ++ if endsInSeparator pattern then [""] else [] := by
  unfold steps
  split
  next ends =>
    obtain ⟨front, rfl⟩ := endsInSeparator_iff.mp ends
    rw [Text.parts_concat, List.dropLast_concat]
  next => exact (List.append_nil _).symm

theorem steps_ne_nil (pattern : String) : steps pattern ≠ [] := by
  unfold steps
  split
  next ends =>
    obtain ⟨front, rfl⟩ := endsInSeparator_iff.mp ends
    rw [Text.parts_concat, List.dropLast_concat]
    exact Text.parts_ne_nil front
  next => exact Text.parts_ne_nil pattern

/-- The components of the steps are those of the pattern without the empty one at its end. -/
theorem components_eq_steps (pattern : String) :
    (if endsInSeparator pattern then (parse pattern).dropLast else parse pattern) =
      (steps pattern).map Component.parse := by
  unfold parse steps
  split
  · exact List.map_dropLast.symm
  · rfl

variable {pattern : String}

theorem Downward.filled (downward : Downward pattern) : pattern ≠ "" := by
  intro empty
  subst empty
  exact (downward "" (by decide)).filled rfl

/-- Before a separator at the start of a pattern there would be a step without a name. -/
theorem Downward.relative (downward : Downward pattern) :
    pattern.toList.head? ≠ some separator := by
  intro absolute
  obtain ⟨rest, cut⟩ := List.head?_eq_some_iff.mp absolute
  have parts : Text.parts separator pattern = "" :: Text.parts separator (String.ofList rest) := by
    unfold Text.parts
    rw [cut, splitOn_cons_self, String.toList_ofList]
    rfl
  obtain ⟨first, others, stepped⟩ := List.exists_cons_of_ne_nil (steps_ne_nil pattern)
  have named : IsName first := downward first (stepped ▸ List.mem_cons_self)
  rw [parts_eq_steps, stepped, List.cons_append] at parts
  exact named.filled (List.cons.inj parts).1

/-- Such a pattern asks for directories when it ends in a separator, for it is more than that. -/
theorem Downward.asksDirectories (downward : Downward pattern) :
    (decide (1 < pattern.length) && endsInSeparator pattern) = endsInSeparator pattern := by
  cases ends : endsInSeparator pattern with
  | false => exact Bool.and_false _
  | true =>
      obtain ⟨front, rfl⟩ := endsInSeparator_iff.mp ends
      have longer : front.length ≠ 0 := by
        intro none
        have relative := downward.relative
        rw [String.length_eq_zero_iff.mp none] at relative
        exact relative rfl
      have size : (front ++ "/").length = front.length + 1 := String.length_append front "/"
      simp only [Bool.and_true, decide_eq_true_eq]
      omega

end Glob

namespace Component

variable {part name : String}

theorem isWild_parse : (parse part).isWild = true ↔ '*' ∈ part.toList := by
  unfold parse
  split
  next wild => simpa [isWild] using wild
  next plain => simpa [isWild] using plain

/-- Whether a component shows hidden names is read off the text in front of its first wildcard. -/
theorem matchesHidden_parse : (parse part).matchesHidden = true ↔ IsHidden part := by
  unfold parse IsHidden
  split
  · have first : ((Text.parts '*' part).headD "").toList = (part.toList.splitOn '*').headD [] := by
      unfold Text.parts
      cases part.toList.splitOn '*' <;> simp
    rw [matchesHidden, first, beq_iff_eq]
    cases part.toList with
    | nil => simp
    | cons c rest =>
        by_cases wild : c = '*'
        · subst wild
          rw [splitOn_cons_self]
          simp
        · obtain ⟨front, others, cut⟩ :=
            List.exists_cons_of_ne_nil (List.splitOn_ne_nil '*' rest)
          rw [splitOn_cons_of_ne wild, cut]
          simp
  · exact beq_iff_eq

/-- The component of a part picks the names that the part picks. -/
theorem picks_parse (whole : separator ∉ name.toList) :
    (parse part).picks name = true ↔ Glob.Picks part name := by
  have covers : (parse part).accepts name = true ↔ Glob.Covers part.toList name.toList := by
    have shared := @accepts_iff_covers part.toList _ whole
    rwa [String.ofList_toList, String.ofList_toList] at shared
  have shown : (!(parse part).isWild || (parse part).matchesHidden ||
      name.toList.head? != some '.') = true ↔
        ('*' ∈ part.toList → IsHidden name → IsHidden part) := by
    have hidden : IsHidden part ↔ (parse part).matchesHidden = true := matchesHidden_parse.symm
    rw [← isWild_parse, hidden]
    cases (parse part).isWild <;> cases (parse part).matchesHidden <;> simp [IsHidden]
  rw [picks, Bool.and_eq_true, covers, shown]
  exact ⟨fun holds => ⟨holds.1, holds.2⟩, fun holds => ⟨holds.covers, holds.shown⟩⟩

end Component

end PathCatalog
