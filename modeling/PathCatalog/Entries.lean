namespace PathCatalog

variable {Value : Type}

/-- The list of pairs with the name's value replaced, or with the pair added at the end. -/
def place (name : String) (value : Value) : List (String × Value) → List (String × Value)
  | [] => [(name, value)]
  | pair :: rest =>
      if pair.1 = name then (name, value) :: rest else pair :: place name value rest

theorem names_place_of_mem {name : String} {value : Value} {pairs : List (String × Value)}
    (present : name ∈ pairs.map Prod.fst) :
    (place name value pairs).map Prod.fst = pairs.map Prod.fst := by
  induction pairs with
  | nil => simp at present
  | cons pair rest ih =>
      by_cases same : pair.1 = name
      · simp [place, same]
      · have later : name ∈ rest.map Prod.fst := by
          simpa [Ne.symm same] using present
        simp only [place, same, if_false, List.map_cons, ih later]

theorem names_place_of_not_mem {name : String} {value : Value} {pairs : List (String × Value)}
    (absent : name ∉ pairs.map Prod.fst) :
    (place name value pairs).map Prod.fst = pairs.map Prod.fst ++ [name] := by
  induction pairs with
  | nil => rfl
  | cons pair rest ih =>
      simp only [List.map_cons, List.mem_cons, not_or] at absent
      have different : ¬ pair.1 = name := fun same => absent.1 same.symm
      simp only [place, different, if_false, List.map_cons, ih absent.2, List.cons_append]

theorem nodup_names_place {name : String} {value : Value} {pairs : List (String × Value)}
    (distinct : (pairs.map Prod.fst).Nodup) :
    ((place name value pairs).map Prod.fst).Nodup := by
  by_cases present : name ∈ pairs.map Prod.fst
  · rw [names_place_of_mem present]
    exact distinct
  · rw [names_place_of_not_mem present]
    refine List.nodup_append.2 ⟨distinct, by simp, ?_⟩
    intro first firstIn second secondIn same
    rw [List.mem_singleton] at secondIn
    exact present (secondIn ▸ same ▸ firstIn)

/-- Names with their values, each name once, in the order in which they first came. -/
structure Entries (Value : Type) where
  pairs : List (String × Value)
  distinct : (pairs.map Prod.fst).Nodup

namespace Entries

def empty : Entries Value :=
  ⟨[], by simp⟩

instance : Inhabited (Entries Value) := ⟨empty⟩

/-- The name's value is replaced in its place, or the name is added at the end. -/
def set (entries : Entries Value) (name : String) (value : Value) : Entries Value :=
  ⟨place name value entries.pairs, nodup_names_place entries.distinct⟩

/-- The pairs are set one after the other. -/
def ofList (pairs : List (String × Value)) : Entries Value :=
  pairs.foldl (fun entries pair => entries.set pair.1 pair.2) empty

/-- The entries with every override set. -/
def merged (base overrides : Entries Value) : Entries Value :=
  overrides.pairs.foldl (fun entries pair => entries.set pair.1 pair.2) base

def get? (entries : Entries Value) (name : String) : Option Value :=
  entries.pairs.lookup name

def names (entries : Entries Value) : List String :=
  entries.pairs.map Prod.fst

def size (entries : Entries Value) : Nat :=
  entries.pairs.length

def isEmpty (entries : Entries Value) : Bool :=
  entries.pairs.isEmpty

@[ext] theorem ext {left right : Entries Value} (same : left.pairs = right.pairs) :
    left = right := by
  cases left
  cases right
  simp_all

end Entries

/-- A value for each of some fields. -/
abbrev FieldMap := Entries String

end PathCatalog
