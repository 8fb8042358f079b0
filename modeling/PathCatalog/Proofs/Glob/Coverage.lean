import PathCatalog.Proofs.Glob.Language

namespace PathCatalog.Glob

/-- Every pattern covers itself; a wildcard stands for itself as well. -/
theorem covers_refl (pattern : List Char) : Covers pattern pattern := by
  induction pattern with
  | nil => exact .nil
  | cons c rest ih =>
      by_cases wild : c = '*'
      · subst wild
        exact .wild ['*'] (by decide) ih
      · exact .char wild ih

/-- A joined pattern covers what its parts cover one after the other. -/
theorem covers_append_iff {front back text : List Char} :
    Covers (front ++ back) text ↔
      ∃ first last, Covers front first ∧ Covers back last ∧ first ++ last = text := by
  constructor
  · intro covers
    induction front generalizing text with
    | nil => exact ⟨[], text, .nil, covers, rfl⟩
    | cons c front ih =>
        cases covers with
        | char plain rest =>
            obtain ⟨first, last, one, other, rfl⟩ := ih rest
            exact ⟨_ :: first, last, .char plain one, other, rfl⟩
        | wild filling inside rest =>
            obtain ⟨first, last, one, other, rfl⟩ := ih rest
            exact ⟨filling ++ first, last, .wild filling inside one, other, List.append_assoc ..⟩
  · intro holds
    obtain ⟨first, last, one, other, rfl⟩ := holds
    exact one.append other

/-- Without a wildcard a pattern covers nothing but itself. -/
theorem covers_plain_iff {pattern text : List Char} (plain : '*' ∉ pattern) :
    Covers pattern text ↔ pattern = text := by
  constructor
  · intro covers
    induction covers with
    | nil => rfl
    | char _ _ ih => rw [ih fun member => plain (List.mem_cons_of_mem _ member)]
    | wild _ _ _ _ => exact absurd List.mem_cons_self plain
  · intro same
    subst same
    exact covers_self plain

theorem covers_wildcard_iff {text : List Char} : Covers ['*'] text ↔ separator ∉ text := by
  constructor
  · intro covers
    cases covers with
    | char plain _ => exact absurd rfl plain
    | wild filling inside rest =>
        cases rest
        rwa [List.append_nil]
  · intro inside
    have covered := Covers.wild text inside .nil
    rwa [List.append_nil] at covered

/-- Only wildcards give way to no text at all. -/
theorem covers_empty_iff {pattern : List Char} : Covers pattern [] ↔ ∀ c ∈ pattern, c = '*' := by
  induction pattern with
  | nil => simp [Covers.nil]
  | cons c rest ih =>
      have one : Covers [c] [] ↔ c = '*' := by
        by_cases wild : c = '*'
        · subst wild
          simp [covers_wildcard_iff]
        · have plain : '*' ∉ [c] := by simpa using Ne.symm wild
          simp [covers_plain_iff plain, wild]
      rw [List.forall_mem_cons, ← ih, ← one, ← List.singleton_append, covers_append_iff]
      constructor
      · intro holds
        obtain ⟨first, last, front, back, none⟩ := holds
        obtain ⟨rfl, rfl⟩ := List.append_eq_nil_iff.mp none
        exact ⟨front, back⟩
      · intro holds
        exact ⟨[], [], holds.1, holds.2, rfl⟩

/-- A pattern that ends in a separator covers only texts that do. -/
theorem endsInSeparator_of_covers {pattern text : String}
    (covers : Covers pattern.toList text.toList) (ends : endsInSeparator pattern = true) :
    endsInSeparator text = true := by
  rw [endsInSeparator, beq_iff_eq, List.getLast?_eq_some_iff] at ends ⊢
  obtain ⟨front, cut⟩ := ends
  rw [cut, covers_append_iff] at covers
  obtain ⟨first, last, _, closing, joined⟩ := covers
  rw [covers_plain_iff (by decide)] at closing
  subst closing
  exact ⟨first, joined.symm⟩

end PathCatalog.Glob
