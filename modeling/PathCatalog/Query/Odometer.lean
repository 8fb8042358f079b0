import PathCatalog.Query

namespace PathCatalog

/-- A wheel shows one of its positions. -/
structure Wheel where
  size : Nat
  position : Nat
  within : position < size
  deriving DecidableEq, Repr

def Wheel.restarted (wheel : Wheel) : Wheel :=
  ⟨wheel.size, 0, Nat.zero_lt_of_lt wheel.within⟩

namespace Odometer

def sizes (wheels : List Wheel) : List Nat :=
  wheels.map Wheel.size

def shown (wheels : List Wheel) : List Nat :=
  wheels.map Wheel.position

/-- The wheels after a turn of the last one, and whether the turn was carried beyond the first. -/
def turn : List Wheel → Bool × List Wheel
  | [] => (true, [])
  | wheel :: rest =>
      match turn rest with
      | (false, turned) => (false, wheel :: turned)
      | (true, turned) =>
          if room : wheel.position + 1 < wheel.size then
            (false, ⟨wheel.size, wheel.position + 1, room⟩ :: turned)
          else (true, wheel.restarted :: turned)

/-- A turn changes what the wheels show, not how many positions they have. -/
@[simp] theorem sizes_turn (wheels : List Wheel) : sizes (turn wheels).2 = sizes wheels := by
  induction wheels with
  | nil => rfl
  | cons wheel rest ih =>
      rw [turn]
      split
      next turned step => simpa [sizes, step] using ih
      next turned step => split <;> simpa [sizes, step, Wheel.restarted] using ih

/-- A turn that is carried beyond the first wheel starts all of them again. -/
theorem turn_of_carried {wheels turned : List Wheel} (carried : turn wheels = (true, turned)) :
    turned = wheels.map Wheel.restarted := by
  induction wheels generalizing turned with
  | nil => cases carried; rfl
  | cons wheel rest ih =>
      rw [turn] at carried
      split at carried
      next => cases carried
      next others step =>
        split at carried
        next => cases carried
        next =>
          cases carried
          rw [ih step, List.map_cons]

/-- How many choices there are of one position per wheel. -/
def total (sizes : List Nat) : Nat :=
  sizes.foldr (· * ·) 1

/-- How many choices come after the one that is shown. -/
def remaining : List Wheel → Nat
  | [] => 0
  | wheel :: rest => (wheel.size - 1 - wheel.position) * total (sizes rest) + remaining rest

theorem remaining_restarted (wheels : List Wheel) :
    remaining (wheels.map Wheel.restarted) + 1 = total (sizes wheels) := by
  induction wheels with
  | nil => rfl
  | cons wheel rest ih =>
      obtain ⟨size, position, within⟩ := wheel
      obtain ⟨size, rfl⟩ := Nat.exists_eq_add_of_lt (Nat.zero_lt_of_lt within)
      have same : sizes (rest.map Wheel.restarted) = sizes rest := by
        simp [sizes, Wheel.restarted, Function.comp_def]
      rw [List.map_cons, remaining, same, Nat.add_assoc, ih]
      simp [sizes, total, Wheel.restarted, Nat.succ_mul]

/-- Every turn that is not carried beyond the first wheel leaves fewer choices. -/
theorem remaining_turn_lt {wheels turned : List Wheel} (step : turn wheels = (false, turned)) :
    remaining turned < remaining wheels := by
  induction wheels generalizing turned with
  | nil => cases step
  | cons wheel rest ih =>
      have kept := sizes_turn rest
      rw [turn] at step
      split at step
      next others inner =>
        cases step
        rw [inner] at kept
        simp only [remaining, kept]
        exact Nat.add_lt_add_left (ih inner) _
      next others carried =>
        split at step
        next room =>
          cases step
          rw [carried] at kept
          have again := remaining_restarted rest
          rw [← turn_of_carried carried] at again
          -- the wheel loses one position, which is worth all choices of the wheels behind it
          obtain ⟨left, same⟩ : ∃ left, wheel.size - 1 - wheel.position = left + 1 :=
            ⟨wheel.size - 1 - wheel.position - 1, by omega⟩
          have next : wheel.size - 1 - (wheel.position + 1) = left := by omega
          simp only [remaining, kept, same, next, Nat.succ_mul]
          omega
        next => cases step

/-- The choices from the one that is shown on, turn by turn. -/
def run (wheels : List Wheel) : List (List Nat) :=
  shown wheels ::
    match _ : turn wheels with
    | (true, _) => []
    | (false, turned) => run turned
termination_by remaining wheels
decreasing_by exact remaining_turn_lt ‹_›

/-- All wheels at their first positions; a wheel without positions shows nothing. -/
def start? : List Nat → Option (List Wheel)
  | [] => some []
  | size :: rest =>
      if filled : 0 < size then (start? rest).map (⟨size, 0, filled⟩ :: ·) else none

/-- Every choice of one position per wheel, in the order in which the odometer shows them. -/
def readings (sizes : List Nat) : List (List Nat) :=
  match start? sizes with
  | some wheels => run wheels
  | none => []

end Odometer

end PathCatalog
