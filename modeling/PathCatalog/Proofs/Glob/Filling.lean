import PathCatalog.Proofs.Glob.Language

namespace PathCatalog.Glob

/-- The text that a pattern becomes when its wildcards give way to some texts, in order. -/
def filledIn : List Char → List (List Char) → List Char
  | [], _ => []
  | c :: pattern, fillings =>
      if c = '*' then fillings.headD [] ++ filledIn pattern fillings.tail
      else c :: filledIn pattern fillings

@[simp] theorem filledIn_nil (fillings : List (List Char)) : filledIn [] fillings = [] := rfl

@[simp] theorem filledIn_wild (pattern filling : List Char) (fillings : List (List Char)) :
    filledIn ('*' :: pattern) (filling :: fillings) = filling ++ filledIn pattern fillings := rfl

@[simp] theorem filledIn_char {c : Char} (plain : c ≠ '*') (pattern : List Char)
    (fillings : List (List Char)) :
    filledIn (c :: pattern) fillings = c :: filledIn pattern fillings :=
  if_neg plain

/-- A pattern covers what it becomes with texts that hold no separator. -/
theorem covers_filledIn {pattern : List Char} {fillings : List (List Char)}
    (enough : fillings.length = pattern.count '*')
    (inside : ∀ filling ∈ fillings, separator ∉ filling) :
    Covers pattern (filledIn pattern fillings) := by
  induction pattern generalizing fillings with
  | nil => exact .nil
  | cons c pattern ih =>
      by_cases wild : c = '*'
      · subst wild
        cases fillings with
        | nil => simp at enough
        | cons filling fillings =>
            have others : fillings.length = pattern.count '*' := by simpa using enough
            have later := ih others fun other member => inside other (List.mem_cons_of_mem _ member)
            rw [filledIn_wild]
            exact .wild filling (inside filling List.mem_cons_self) later
      · have same : fillings.length = pattern.count '*' := by
          rwa [List.count_cons_of_ne wild] at enough
        rw [filledIn_char wild]
        exact .char wild (ih same inside)

/-- A covered text shows what each wildcard has given way to. -/
theorem exists_fillings {pattern text : List Char} (covers : Covers pattern text) :
    ∃ fillings, fillings.length = pattern.count '*' ∧
      (∀ filling ∈ fillings, separator ∉ filling) ∧ filledIn pattern fillings = text := by
  induction covers with
  | nil => exact ⟨[], rfl, by simp, rfl⟩
  | char plain _ ih =>
      obtain ⟨fillings, enough, inside, made⟩ := ih
      refine ⟨fillings, ?_, inside, ?_⟩
      · rwa [List.count_cons_of_ne plain]
      · rw [filledIn_char plain, made]
  | wild filling free _ ih =>
      obtain ⟨fillings, enough, inside, made⟩ := ih
      refine ⟨filling :: fillings, ?_, ?_, ?_⟩
      · simp [enough]
      · simp only [List.forall_mem_cons]
        exact ⟨free, inside⟩
      · rw [filledIn_wild, made]

/-- A pattern accepts what it becomes when its wildcards give way, independently, to texts without a
separator. -/
theorem accepts_iff_filledIn (pattern candidate : String) :
    (parse pattern).accepts candidate = true ↔
      ∃ fillings : List (List Char), fillings.length = pattern.toList.count '*' ∧
        (∀ filling ∈ fillings, separator ∉ filling) ∧
        filledIn pattern.toList fillings = candidate.toList := by
  rw [accepts_iff_covers]
  constructor
  · exact exists_fillings
  · intro holds
    obtain ⟨fillings, enough, inside, made⟩ := holds
    rw [← made]
    exact covers_filledIn enough inside

/-- Two neighbouring wildcards share the text between them in any way. -/
example : filledIn ['a', '*', '*', '/', '*'] [['x'], [], ['y', 'z']] = ['a', 'x', '/', 'y', 'z'] := by
  decide

end PathCatalog.Glob
