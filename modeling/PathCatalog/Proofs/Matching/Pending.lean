import Mathlib.Data.List.Basic
import PathCatalog.Proofs.Matching.Attempt

namespace PathCatalog

namespace Plan

/-- The branches that stay pending behind a value. -/
def kept (shape : Shape) (length : Nat) : Nat :=
  match shape.width with
  | some _ => 0
  | none => behind shape.kind length

theorem opened_le (kind : CharClass) (length : Nat) : opened kind length ≤ length := by
  cases kind <;> simp only [opened] <;> omega

theorem opened_of_class {kind : CharClass} (classed : kind ≠ .any) (length : Nat) :
    opened kind length = length := by
  cases kind <;> first | rfl | exact absurd rfl classed

theorem behind_le {kind : CharClass} {length : Nat} (positive : 0 < length) :
    behind kind length ≤ length := by
  cases kind <;> simp only [behind] <;> omega

theorem length_lengths (kind : CharClass) (text : List Char) :
    (lengths kind text).length = (text.takeWhile kind.contains).length := by
  cases kind <;> simp [lengths]

theorem length_lengths_le (kind : CharClass) (text : List Char) :
    (lengths kind text).length ≤ text.length := by
  rw [length_lengths]
  exact (List.takeWhile_sublist _).length_le

/-- A value leaves no more branches than it has characters. -/
theorem kept_le {shape : Shape} {text : List Char} {length : Nat}
    (member : length ∈ lengthsOf shape text) : kept shape length ≤ length := by
  obtain ⟨width, kind⟩ := shape
  cases width with
  | some width => exact Nat.zero_le _
  | none => exact behind_le (mem_lengths.mp member).1

theorem orElse_eq_overflowed {verdict : Verdict} {next : Nat → Verdict} :
    verdict.orElse next = .overflowed ↔
      verdict = .overflowed ∨ ∃ budget, verdict = .refused budget ∧ next budget = .overflowed := by
  cases verdict <;> simp [Verdict.orElse]

theorem exists_of_firstOf_overflowed {Way : Type} {follow : Way → Nat → Verdict} {ways : List Way}
    {budget : Nat} (full : firstOf follow ways budget = .overflowed) :
    ∃ way ∈ ways, ∃ left, follow way left = .overflowed := by
  induction ways generalizing budget with
  | nil => cases full
  | cons way ways ih =>
      rcases orElse_eq_overflowed.mp full with here | ⟨left, _, later⟩
      · exact ⟨way, List.mem_cons_self, budget, here⟩
      · obtain ⟨other, member, more, found⟩ := ih later
        exact ⟨other, List.mem_cons_of_mem _ member, more, found⟩

theorem spend_ne_overflowed (budget : Nat) : Verdict.spend budget ≠ .overflowed := by
  cases budget <;> exact nofun

theorem exists_of_charged_overflowed {kind : CharClass} {follow : Nat → Verdict} {budget : Nat}
    (full : charged kind follow budget = .overflowed) : ∃ left, follow left = .overflowed := by
  by_cases plain : kind = .any
  · subst plain
    rcases orElse_eq_overflowed.mp full with here | ⟨left, _, later⟩
    · exact ⟨budget, here⟩
    · exact absurd later (spend_ne_overflowed left)
  · have before : (Verdict.spend budget).orElse follow = .overflowed := by
      cases kind <;> first | exact full | exact absurd rfl plain
    rcases orElse_eq_overflowed.mp before with here | ⟨left, _, later⟩
    · exact absurd here (spend_ne_overflowed budget)
    · exact ⟨left, later⟩

section Step

variable {rest : Nat → List Char} {finish : Nat → Answer} {demands : List Demand}
  {seen : List Span} {place pending budget : Nat}

theorem search_nil_ne_overflowed :
    search rest finish [] seen place pending budget ≠ .overflowed := by
  intro full
  rw [search] at full
  split at full <;> cases full

/-- Literal text opens no branches. -/
theorem of_text_overflowed {chars : List Char}
    (full : search rest finish (.text chars :: demands) seen place pending budget =
      .overflowed) :
    ∃ length, search rest finish demands seen (place + length) pending budget = .overflowed := by
  rw [search] at full
  split at full
  · exact ⟨_, full⟩
  · cases full

/-- A value that is recalled opens no branches. -/
theorem of_recall_overflowed {index : Nat}
    (full : search rest finish (.recall index :: demands) seen place pending budget =
      .overflowed) :
    ∃ length, search rest finish demands seen (place + length) pending budget = .overflowed := by
  rw [search] at full
  split at full
  · split at full
    · exact ⟨_, full⟩
    · cases full
  · cases full

/-- A capture runs out of branches when its own run opens too many or the rest does. -/
theorem of_capture_overflowed {shape : Shape}
    (full : search rest finish (.capture shape :: demands) seen place pending budget =
      .overflowed) :
    branchLimit < pending + opened shape.kind (lengths shape.kind (rest place)).length ∨
      ∃ length ∈ lengthsOf shape (rest place), ∃ left,
        search rest finish demands (seen ++ [⟨rest place, length⟩]) (place + length)
          (pending + kept shape length) left = .overflowed := by
  obtain ⟨width, kind⟩ := shape
  cases width with
  | none =>
      rw [search] at full
      split at full
      · exact .inl ‹_›
      · obtain ⟨length, member, left, charged⟩ := exists_of_firstOf_overflowed full
        obtain ⟨more, later⟩ := exists_of_charged_overflowed charged
        exact .inr ⟨length, member, more, later⟩
  | some width =>
      rw [search] at full
      split at full
      · rename_i stands
        have tried : lengthsOf ⟨some width, kind⟩ (rest place) = [width] := if_pos stands
        rw [tried]
        exact .inr ⟨width, List.mem_singleton.mpr rfl, budget, full⟩
      · cases full

end Step

section Overflow

variable {text : List Char} {finish : Nat → Answer} {seen : List Span}
  {place pending budget : Nat}

/-- No more branches are pending than characters are behind, so only a long text opens too many. -/
theorem lt_length_of_search_overflowed {before : List Demand} (reached : pending ≤ place)
    (within : pending ≤ text.length)
    (full : search (fun place => text.drop place) finish before seen place pending budget =
      .overflowed) : branchLimit < text.length := by
  induction before generalizing seen place pending budget with
  | nil => exact absurd full search_nil_ne_overflowed
  | cons demand demands ih =>
      cases demand with
      | text chars =>
          obtain ⟨length, later⟩ := of_text_overflowed full
          exact ih (Nat.le_add_right_of_le reached) within later
      | «recall» index =>
          obtain ⟨length, later⟩ := of_recall_overflowed full
          exact ih (Nat.le_add_right_of_le reached) within later
      | capture shape =>
          rcases of_capture_overflowed full with here | ⟨length, member, left, later⟩
          · have few := opened_le shape.kind (lengths shape.kind (text.drop place)).length
            have fits := length_lengths_le shape.kind (text.drop place)
            rw [List.length_drop] at fits
            omega
          · have few := kept_le member
            have fits := (mem_lengthsOf.mp member).1
            rw [List.length_drop] at fits
            exact ih (by omega) (by omega) later

/-- A greedy run that is longer than the limit opens too many branches. -/
theorem search_of_long_run {rest : Nat → List Char} {kind : CharClass} {demands : List Demand}
    (classed : kind ≠ .any)
    (long : branchLimit < ((rest place).takeWhile kind.contains).length) :
    search rest finish (.capture ⟨none, kind⟩ :: demands) seen place pending budget =
      .overflowed := by
  rw [search]
  refine if_pos ?_
  rw [opened_of_class classed, length_lengths]
  omega

end Overflow

/-- Without repetitions nothing is tried twice, so an attempt runs into no limit. -/
theorem attempt_of_unrepeated {demands : List Demand} (unrepeated : Unrepeated demands)
    (text : List Char) (budget : Nat) :
    (∃ spans, attempt demands text budget = .found spans) ∨
      attempt demands text budget = .refused budget := by
  rw [attempt_eq_search, divide_of_unrepeated unrepeated, search]
  split
  · exact .inl ⟨_, rfl⟩
  · exact .inr rfl

theorem lt_length_of_attempt_overflowed {demands : List Demand} {text : List Char} {budget : Nat}
    (full : attempt demands text budget = .overflowed) : branchLimit < text.length := by
  rw [attempt_eq_search] at full
  exact lt_length_of_search_overflowed (Nat.le_refl 0) (Nat.zero_le _) full

end Plan

end PathCatalog
