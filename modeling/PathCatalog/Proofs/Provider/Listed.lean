import Mathlib.Data.List.Nodup
import PathCatalog.Provider

namespace PathCatalog

/-- Two outcomes list the same paths in any order, or fail alike. -/
inductive Rearranged : Except Failure (List String) → Except Failure (List String) → Prop where
  | failed (fault : Failure) : Rearranged (.error fault) (.error fault)
  | answered {answer other : List String} (same : answer.Perm other) :
      Rearranged (.ok answer) (.ok other)

theorem Rearranged.isOk_eq {first second : Except Failure (List String)}
    (same : Rearranged first second) : first.isOk = second.isOk := by
  cases same <;> rfl

namespace Provider

/-- Every pattern has the same answer from both providers, up to the order of the paths. -/
def Rearranges (provider other : Provider) : Prop :=
  ∀ pattern, Rearranged (provider pattern).outcome (other pattern).outcome

theorem mem_unseen {seen texts : List String} {text : String} :
    text ∈ unseen seen texts ↔ text ∈ texts ∧ text ∉ seen := by
  induction texts generalizing seen with
  | nil => simp [unseen]
  | cons first rest ih =>
      unfold unseen
      by_cases known : first ∈ seen
      · rw [if_pos (by simpa using known), ih, List.mem_cons]
        constructor
        · intro holds
          exact ⟨.inr holds.1, holds.2⟩
        · intro holds
          obtain ⟨rfl | later, fresh⟩ := holds
          · exact absurd known fresh
          · exact ⟨later, fresh⟩
      · rw [if_neg (by simpa using known), List.mem_cons, List.mem_cons, ih]
        by_cases same : text = first
        · simp [same, known]
        · simp [same]

theorem nodup_unseen (seen texts : List String) : (unseen seen texts).Nodup := by
  induction texts generalizing seen with
  | nil => exact List.nodup_nil
  | cons first rest ih =>
      unfold unseen
      split
      · exact ih seen
      · apply List.nodup_cons.mpr
        refine ⟨fun again => ?_, ih _⟩
        have fresh := (mem_unseen.mp again).2
        simp at fresh

theorem unseen_perm {texts others : List String} (same : texts.Perm others) (seen : List String) :
    (unseen seen texts).Perm (unseen seen others) := by
  apply (List.perm_ext_iff_of_nodup (nodup_unseen seen texts) (nodup_unseen seen others)).mpr
  intro text
  rw [mem_unseen, mem_unseen, same.mem_iff]

theorem candidates_perm {paths others : List String} (same : paths.Perm others) (pattern : String) :
    (candidates paths pattern).Perm (candidates others pattern) := by
  unfold candidates
  split
  · exact unseen_perm (same.map parent) []
  · exact same

/-- Every pattern but the empty one picks some of the candidates. -/
theorem outcome_listed {pattern : String} (asked : pattern ≠ "") (paths : List String) :
    (listed paths pattern).outcome =
      .ok ((candidates paths pattern).filter (Glob.parse pattern).accepts) := by
  have filled : pattern.isEmpty = false := by simpa using asked
  simp [listed, filled]

/-- A list never fails. -/
theorem exists_listed (paths : List String) (pattern : String) :
    ∃ answer, (listed paths pattern).outcome = .ok answer := by
  unfold listed
  split <;> exact ⟨_, rfl⟩

/-- A list warns of nothing. -/
theorem warnings_listed (paths : List String) (pattern : String) :
    (listed paths pattern).warnings = [] := by
  unfold listed
  split <;> rfl

/-- A list in another order answers every pattern with the same paths. -/
theorem rearranges_listed {paths others : List String} (same : paths.Perm others) :
    (listed paths).Rearranges (listed others) := by
  intro pattern
  unfold listed
  split
  · exact .answered (.refl [])
  · exact .answered ((candidates_perm same pattern).filter _)

end Provider

end PathCatalog
