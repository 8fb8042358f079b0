import PathCatalog.Proofs.Provider.Steps
import PathCatalog.Provider

namespace PathCatalog

variable {way : Location} {name : String}

/-- Names without a separator are the parts of their path. -/
theorem parts_joined (whole : ∀ name ∈ way, separator ∉ name.toList) (filled : way ≠ []) :
    Text.parts separator (Text.joined "/" way) = way :=
  Text.parts_joined whole filled

theorem spelledWay_singleton (asDirectory : Bool) :
    spelledWay asDirectory [name] = if asDirectory then name ++ "/" else name := by
  cases asDirectory <;> simp [spelledWay, Text.joined]

/-- The name of a directory stands in front of the way from there. -/
theorem spelledWay_cons (asDirectory : Bool) (filled : way ≠ []) :
    spelledWay asDirectory (name :: way) = name ++ "/" ++ spelledWay asDirectory way := by
  cases asDirectory <;>
    simp [spelledWay, Text.joined, String.intercalate_cons_of_ne_nil filled, String.append_assoc]

theorem joined_concat (filled : way ≠ []) :
    Text.joined "/" (way ++ [name]) = Text.joined "/" way ++ "/" ++ name := by
  unfold Text.joined
  induction way with
  | nil => exact absurd rfl filled
  | cons first rest ih =>
      by_cases done : rest = []
      · simp [done]
      · have more : rest ++ [name] ≠ [] := by simp
        rw [List.cons_append, String.intercalate_cons_of_ne_nil more, ih done,
          String.intercalate_cons_of_ne_nil done]
        simp only [String.append_assoc]

theorem parts_spelledWay (asDirectory : Bool) (whole : ∀ name ∈ way, separator ∉ name.toList)
    (filled : way ≠ []) : Text.parts separator (spelledWay asDirectory way) =
      way ++ if asDirectory then [""] else [] := by
  cases asDirectory with
  | false => exact (parts_joined whole filled).trans (List.append_nil way).symm
  | true =>
      unfold spelledWay
      rw [if_pos rfl, Text.parts_concat, parts_joined whole filled]
      rfl

theorem joined_injective {other : Location} (whole : ∀ name ∈ way, separator ∉ name.toList)
    (others : ∀ name ∈ other, separator ∉ name.toList) (filled : way ≠ []) (some : other ≠ [])
    (same : Text.joined "/" way = Text.joined "/" other) : way = other := by
  rw [← parts_joined whole filled, ← parts_joined others some, same]

theorem spelledWay_injective {asDirectory : Bool} {other : Location}
    (whole : ∀ name ∈ way, separator ∉ name.toList)
    (others : ∀ name ∈ other, separator ∉ name.toList) (filled : way ≠ []) (some : other ≠ [])
    (same : spelledWay asDirectory way = spelledWay asDirectory other) : way = other := by
  apply joined_injective whole others filled some
  cases asDirectory with
  | false => exact same
  | true => exact String.append_left_inj _ |>.mp same

namespace Provider

theorem parent_of_name (whole : separator ∉ name.toList) : parent name = "/" := by
  have passed : (name.toList.reverse ++ []).dropWhile (· != separator) = [] :=
    List.dropWhile_append_of_pos (Text.differs_of_not_mem (by simpa using whole))
  rw [List.append_nil] at passed
  unfold parent
  rw [passed]
  rfl

theorem parent_append (front : String) (whole : separator ∉ name.toList) :
    parent (front ++ "/" ++ name) = front ++ "/" := by
  have turned : (front ++ "/" ++ name).toList.reverse =
      name.toList.reverse ++ separator :: front.toList.reverse := by
    simp [String.toList_append, separator]
  have passed : (name.toList.reverse ++ separator :: front.toList.reverse).dropWhile
      (· != separator) = separator :: front.toList.reverse := by
    rw [List.dropWhile_append_of_pos (Text.differs_of_not_mem (by simpa using whole))]
    simp
  unfold parent
  rw [turned, passed]
  apply String.toList_injective
  simp [String.toList_append, separator]

/-- The directory of a path is the way without its last name; that of a mere name is the root. -/
theorem parent_joined (way : Location) (whole : separator ∉ name.toList) :
    parent (Text.joined "/" (way ++ [name])) = Text.joined "/" way ++ "/" := by
  by_cases filled : way = []
  · have alone : Text.joined "/" ([] ++ [name]) = name := by simp [Text.joined]
    rw [filled, alone, parent_of_name whole]
    rfl
  · rw [joined_concat filled, parent_append _ whole]

end Provider

end PathCatalog
