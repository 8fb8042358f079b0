import Mathlib.Data.List.Forall2
import Mathlib.Data.List.Lex
import Mathlib.Data.List.Sort
import PathCatalog.Query.Odometer

namespace PathCatalog.Odometer

/-- One position per wheel. -/
def Within (counts positions : List Nat) : Prop :=
  List.Forall₂ (· < ·) positions counts

/-- Some positions come before others when the first wheel that differs shows an earlier one. -/
abbrev Before : List Nat → List Nat → Prop :=
  List.Lex (· < ·)

theorem within_cons {size : Nat} {counts positions : List Nat} :
    Within (size :: counts) positions ↔
      ∃ position others, position < size ∧ Within counts others ∧ position :: others = positions := by
  simp only [Within, List.forall₂_cons_right_iff, @eq_comm _ positions]

theorem before_cons {position other : Nat} {rest others : List Nat} :
    Before (position :: rest) (other :: others) ↔
      position < other ∨ position = other ∧ Before rest others := by
  constructor
  · intro before
    cases before with
    | rel less => exact .inl less
    | cons later => exact .inr ⟨rfl, later⟩
  · intro holds
    rcases holds with less | ⟨rfl, later⟩
    · exact .rel less
    · exact .cons later

theorem not_before_cons {position other : Nat} {rest others : List Nat} :
    ¬ Before (position :: rest) (other :: others) ↔
      other < position ∨ position = other ∧ ¬ Before rest others := by
  rw [before_cons]
  rcases Nat.lt_trichotomy position other with less | rfl | more
  · simp [less, Nat.lt_asymm less, Nat.ne_of_lt less]
  · simp
  · simp [more, Nat.lt_asymm more, (Nat.ne_of_lt more).symm]

theorem before_trans {first second third : List Nat} (early : Before first second)
    (late : Before second third) : Before first third :=
  List.lt_trans early late

theorem before_trichotomy (left right : List Nat) :
    Before left right ∨ left = right ∨ Before right left :=
  trichotomous_of _ left right

theorem within_shown (wheels : List Wheel) : Within (sizes wheels) (shown wheels) := by
  rw [Within, sizes, shown, List.forall₂_map_left_iff, List.forall₂_map_right_iff,
    List.forall₂_same]
  exact fun wheel _ => wheel.within

/-- No choice comes before the one with all wheels at their first positions. -/
theorem not_before_restarted {wheels : List Wheel} {positions : List Nat}
    (within : Within (sizes wheels) positions) :
    ¬ Before positions (shown (wheels.map Wheel.restarted)) := by
  induction wheels generalizing positions with
  | nil =>
      intro before
      cases before
  | cons wheel rest ih =>
      obtain ⟨position, others, _, later, rfl⟩ := within_cons.mp within
      apply not_before_cons.mpr
      rcases Nat.eq_zero_or_pos position with first | positive
      · exact .inr ⟨first, ih later⟩
      · exact .inl positive

/-- A turn is carried beyond the first wheel only from the last choice. -/
theorem not_before_of_carried {wheels turned : List Wheel} (carried : turn wheels = (true, turned))
    {positions : List Nat} (within : Within (sizes wheels) positions) :
    ¬ Before (shown wheels) positions := by
  induction wheels generalizing turned positions with
  | nil =>
      obtain rfl := List.forall₂_nil_right_iff.mp within
      intro before
      cases before
  | cons wheel rest ih =>
      obtain ⟨position, others, inside, later, rfl⟩ := within_cons.mp within
      rw [turn] at carried
      split at carried
      next => cases carried
      next inner step =>
        split at carried
        next => cases carried
        next ends =>
          apply not_before_cons.mpr
          have most : position ≤ wheel.position := by omega
          rcases Nat.lt_or_eq_of_le most with less | same
          · exact .inl less
          · exact .inr ⟨same.symm, ih step later⟩

/-- What is shown after a turn comes after what was shown. -/
theorem before_turn {wheels turned : List Wheel} (step : turn wheels = (false, turned)) :
    Before (shown wheels) (shown turned) := by
  induction wheels generalizing turned with
  | nil => cases step
  | cons wheel rest ih =>
      rw [turn] at step
      split at step
      next inner later =>
        cases step
        exact .cons (ih later)
      next =>
        split at step
        next =>
          cases step
          exact .rel (Nat.lt_succ_self _)
        next => cases step

/-- A turn passes over no choice. -/
theorem not_before_turn {wheels turned : List Wheel} (step : turn wheels = (false, turned))
    {positions : List Nat} (within : Within (sizes wheels) positions)
    (after : Before (shown wheels) positions) : ¬ Before positions (shown turned) := by
  induction wheels generalizing turned positions with
  | nil => cases step
  | cons wheel rest ih =>
      obtain ⟨position, others, inside, later, rfl⟩ := within_cons.mp within
      have order := before_cons.mp after
      rw [turn] at step
      split at step
      next inner turns =>
        cases step
        apply not_before_cons.mpr
        rcases order with less | ⟨same, behind⟩
        · exact .inl less
        · exact .inr ⟨same.symm, ih turns later behind⟩
      next inner carried =>
        split at step
        next room =>
          cases step
          have less : wheel.position < position :=
            order.resolve_right fun holds => not_before_of_carried carried later holds.2
          apply not_before_cons.mpr
          rcases Nat.lt_or_eq_of_le less with more | same
          · exact .inl more
          · rw [turn_of_carried carried]
            exact .inr ⟨same.symm, not_before_restarted later⟩
        next => cases step

/-- A run ends with the choice that is shown when a turn is carried beyond the first wheel. -/
theorem run_cases (wheels : List Wheel) :
    (∃ turned, turn wheels = (true, turned) ∧ run wheels = [shown wheels]) ∨
      ∃ turned, turn wheels = (false, turned) ∧ run wheels = shown wheels :: run turned := by
  rw [run]
  split
  next turned carried => exact .inl ⟨turned, carried, rfl⟩
  next turned step => exact .inr ⟨turned, step, rfl⟩

/-- A run shows the choices that do not come before the one that it starts with. -/
theorem mem_run {wheels : List Wheel} {positions : List Nat} :
    positions ∈ run wheels ↔
      Within (sizes wheels) positions ∧ ¬ Before positions (shown wheels) := by
  induction wheels using run.induct with
  | case1 wheels ih =>
      have itself : Within (sizes wheels) (shown wheels) ∧ ¬ Before (shown wheels) (shown wheels) :=
        ⟨within_shown wheels, irrefl _⟩
      rcases run_cases wheels with ⟨turned, carried, ran⟩ | ⟨turned, step, ran⟩
      · rw [ran, List.mem_singleton]
        constructor
        · intro same
          rwa [same]
        · intro holds
          obtain ⟨within, later⟩ := holds
          exact ((before_trichotomy positions (shown wheels)).resolve_left later).resolve_right
            (not_before_of_carried carried within)
      · have kept := sizes_turn wheels
        rw [step] at kept
        rw [ran, List.mem_cons, ih turned step, kept]
        constructor
        · intro holds
          rcases holds with same | ⟨within, later⟩
          · rwa [same]
          · exact ⟨within, fun before => later (before_trans before (before_turn step))⟩
        · intro holds
          obtain ⟨within, later⟩ := holds
          rcases (before_trichotomy positions (shown wheels)).resolve_left later with same | after
          · exact .inl same
          · exact .inr ⟨within, not_before_turn step within after⟩

/-- A run shows the choices in their order. -/
theorem pairwise_run (wheels : List Wheel) : (run wheels).Pairwise Before := by
  induction wheels using run.induct with
  | case1 wheels ih =>
      rcases run_cases wheels with ⟨turned, carried, ran⟩ | ⟨turned, step, ran⟩
      · rw [ran]
        exact List.pairwise_singleton _ _
      · rw [ran, List.pairwise_cons]
        refine ⟨fun positions member => ?_, ih turned step⟩
        have next := before_turn step
        rcases before_trichotomy (shown turned) positions with before | rfl | after
        · exact before_trans next before
        · exact next
        · exact absurd after (mem_run.mp member).2

theorem of_start?_eq_some {counts : List Nat} {wheels : List Wheel}
    (started : start? counts = some wheels) :
    sizes wheels = counts ∧ wheels.map Wheel.restarted = wheels := by
  induction counts generalizing wheels with
  | nil =>
      cases started
      exact ⟨rfl, rfl⟩
  | cons count rest ih =>
      rw [start?] at started
      split at started
      next filled =>
        obtain ⟨others, later, rfl⟩ := Option.map_eq_some_iff.mp started
        obtain ⟨same, first⟩ := ih later
        exact ⟨congrArg (count :: ·) same, congrArg (Wheel.mk count 0 filled :: ·) first⟩
      next => cases started

theorem of_start?_eq_none {counts : List Nat} (stuck : start? counts = none) : 0 ∈ counts := by
  induction counts with
  | nil => cases stuck
  | cons count rest ih =>
      rw [start?] at stuck
      split at stuck
      next => exact List.mem_cons_of_mem _ (ih (Option.map_eq_none_iff.mp stuck))
      next empty =>
        obtain rfl : count = 0 := by omega
        exact List.mem_cons_self

/-- A wheel without positions leaves no choice. -/
theorem not_within_of_zero_mem {counts positions : List Nat} (stuck : 0 ∈ counts) :
    ¬ Within counts positions := by
  intro within
  induction within with
  | nil => cases stuck
  | cons below _ ih =>
      rcases List.mem_cons.mp stuck with rfl | later
      · exact Nat.not_lt_zero _ below
      · exact ih later

/-- The odometer shows every choice of one position per wheel, and nothing else. -/
theorem mem_readings {counts positions : List Nat} :
    positions ∈ readings counts ↔ Within counts positions := by
  rw [readings]
  cases started : start? counts with
  | some wheels =>
      obtain ⟨rfl, first⟩ := of_start?_eq_some started
      rw [mem_run, and_iff_left_iff_imp]
      intro within
      have least := not_before_restarted within
      rwa [first] at least
  | none =>
      exact iff_of_false List.not_mem_nil (not_within_of_zero_mem (of_start?_eq_none started))

/-- The odometer shows the choices in lexicographic order, so none of them twice. -/
theorem pairwise_readings (counts : List Nat) : (readings counts).Pairwise Before := by
  rw [readings]
  split
  · exact pairwise_run _
  · exact List.Pairwise.nil

/-- Every choice of one position per wheel, wheel by wheel. -/
def grid : List Nat → List (List Nat)
  | [] => [[]]
  | count :: rest => (List.range count).flatMap fun position => (grid rest).map (position :: ·)

theorem mem_grid {counts positions : List Nat} :
    positions ∈ grid counts ↔ Within counts positions := by
  induction counts generalizing positions with
  | nil => simp [grid, Within]
  | cons count rest ih =>
      simp only [grid, List.mem_flatMap, List.mem_range, List.mem_map, ih, within_cons]
      constructor
      · intro holds
        obtain ⟨position, below, others, within, same⟩ := holds
        exact ⟨position, others, below, within, same⟩
      · intro holds
        obtain ⟨position, others, below, within, same⟩ := holds
        exact ⟨position, below, others, within, same⟩

theorem pairwise_grid (counts : List Nat) : (grid counts).Pairwise Before := by
  induction counts with
  | nil => exact List.pairwise_singleton _ _
  | cons count rest ih =>
      rw [grid, List.pairwise_flatMap]
      constructor
      · intro position _
        exact ih.map _ fun _ _ before => .cons before
      · refine List.pairwise_lt_range.imp fun less first early second late => ?_
        obtain ⟨_, _, rfl⟩ := List.mem_map.mp early
        obtain ⟨_, _, rfl⟩ := List.mem_map.mp late
        exact .rel less

/-- Both lists are in lexicographic order and hold the same choices, so they are the same. -/
theorem readings_eq_grid (counts : List Nat) : readings counts = grid counts :=
  (pairwise_readings counts).eq_of_mem_iff (pairwise_grid counts) fun _ =>
    mem_readings.trans mem_grid.symm

/-- The odometer turns until every wheel has started again. -/
example : readings [2, 3] = [[0, 0], [0, 1], [0, 2], [1, 0], [1, 1], [1, 2]] := by
  decide +kernel

end PathCatalog.Odometer
