import PathCatalog.Proofs.Query.Arrangement
import PathCatalog.Proofs.Query.Odometer

namespace PathCatalog.Query

open Odometer

/-- A choice has the constrained fields in order, each with the candidate at its position. -/
inductive Taken : List (String × Candidates) → List Nat → List (String × String) → Prop where
  | nil : Taken [] [] []
  | cons {name value : String} {candidates : Candidates} {position : Nat}
      {constraints : List (String × Candidates)} {positions : List Nat}
      {choice : List (String × String)} (stands : candidates.values[position]? = some value)
      (rest : Taken constraints positions choice) :
      Taken ((name, candidates) :: constraints) (position :: positions) ((name, value) :: choice)

/-- A search pattern takes the values of a combination, and the wildcard for all other fields. -/
def Sought (template : Template) (combination : FieldMap) (pattern : String) : Prop :=
  ∃ values : FieldMap, template.build values = .ok pattern ∧
    ∀ name ∈ template.fields, values.get? name = some ((combination.get? name).getD wildcard)

/-- The items of a list stand at the positions below its length. -/
theorem forall₂_range {Item : Type} (items : List Item) :
    List.Forall₂ (fun position item => items[position]? = some item)
      (List.range items.length) items := by
  rw [List.forall₂_iff_get]
  exact ⟨List.length_range, fun position inside _ => by simp⟩

/-- Choices come in the order of their positions. -/
theorem forall₂_choices (constraints : List (String × Candidates)) :
    List.Forall₂ (Taken constraints) (grid (constraints.map fun pair => pair.2.values.length))
      (choices (constraints.map fun pair => (pair.1, pair.2.values))) := by
  induction constraints with
  | nil => exact .cons .nil .nil
  | cons pair rest ih =>
      obtain ⟨name, candidates⟩ := pair
      rw [List.map_cons, List.map_cons, grid, choices]
      refine List.rel_flatMap (forall₂_range candidates.values) fun position value stands => ?_
      rw [List.forall₂_map_left_iff, List.forall₂_map_right_iff]
      exact ih.imp fun positions choice taken => .cons stands taken

/-- Combinations come in the order in which the odometer shows their positions. -/
theorem forall₂_product (query : Query) :
    List.Forall₂ (fun positions combination => Taken query.pairs positions combination.pairs)
      (readings query.counts) query.product := by
  rw [← @List.forall₂_map_right_iff _ _ _ (Taken query.pairs), pairs_product,
    readings_eq_grid]
  exact forall₂_choices query.pairs

theorem length_choices (lists : List (String × List String)) :
    (choices lists).length = lists.foldr (fun list count => list.2.length * count) 1 := by
  induction lists with
  | nil => rfl
  | cons list rest ih =>
      obtain ⟨name, values⟩ := list
      simp [choices, List.length_flatMap, ih]

theorem length_product (query : Query) : query.product.length = total query.counts := by
  rw [product, List.length_map, length_choices, lists, total, counts, List.foldr_map,
    List.foldr_map]

theorem cardinality_of_lt {query : Query} (fits : total query.counts < countBound) :
    query.cardinality = total query.counts :=
  Nat.mod_eq_of_lt fits

theorem total_of_zero_mem {sizes : List Nat} (stuck : 0 ∈ sizes) : total sizes = 0 := by
  induction sizes with
  | nil => cases stuck
  | cons size rest ih =>
      rw [total, List.foldr_cons, Nat.mul_eq_zero]
      rcases List.mem_cons.mp stuck with zero | later
      · exact .inl zero.symm
      · exact .inr (ih later)

/-- Room is set aside when a field has no candidate or all combinations fit. -/
theorem listable_iff {query : Query} (counted : total query.counts < countBound) :
    query.listable = true ↔
      0 ∈ query.counts ∨ total query.counts * combinationBytes < memoryBound := by
  rw [listable, cardinality_of_lt counted]
  simp

theorem sought_iff {template : Template} {combination : FieldMap} {pattern : String} :
    Sought template combination pattern ↔
      template.build (filled template.fields combination) = .ok pattern := by
  constructor
  · intro sought
    obtain ⟨values, built, taken⟩ := sought
    rw [← built]
    refine Template.build_congr fun name member => ?_
    rw [taken name member, get?_filled template.nodup_fields combination member]
  · intro built
    exact ⟨_, built, fun name member => get?_filled template.nodup_fields combination member⟩

/-- The first constraint on what is not a field counts. -/
theorem validateFields_eq_error {query : Query} {fields : List String} {context : String}
    {fault : Failure} :
    query.validateFields fields context = .error fault ↔
      ∃ name, query.names.find? (fun name => name ∉ fields) = some name ∧
        fault = .misfit (.notAField name context fields) := by
  have test : (fun name => decide (name ∉ fields)) = fun name => !fields.contains name := by
    funext name
    simp
  rw [validateFields, test]
  cases query.names.find? fun name => !fields.contains name with
  | none => simp
  | some name => simp [eq_comm]

/-- Expanding fails for a constraint on what is not a field, then for too many combinations. -/
theorem expand_eq_error {template : Template} {query : Query} {fault : Failure} :
    query.expand template = .error fault ↔
      (∃ name, query.names.find? (fun name => name ∉ template.fields) = some name ∧
        fault = .misfit (.notAField name template.pattern template.fields)) ∨
      (∀ name ∈ query.names, name ∈ template.fields) ∧ query.listable = false ∧
        fault = .tooManyCombinations := by
  rw [← validateFields_eq_error, ← combinations_eq_error, ← validateFields_eq_ok, expand,
    bind_eq_error]
  refine or_congr_right ?_
  constructor
  · intro failed
    obtain ⟨_, valid, later⟩ := failed
    refine ⟨valid, (bind_eq_error.mp later).resolve_right fun unbuilt => ?_⟩
    obtain ⟨combinations, _, unbuilt⟩ := unbuilt
    obtain ⟨patterns, built⟩ := exists_buildEach template combinations
    rw [built] at unbuilt
    cases unbuilt
  · intro failed
    obtain ⟨valid, large⟩ := failed
    exact ⟨(), valid, bind_eq_error.mpr (.inl large)⟩

/-- What a query stands for when its combinations are listed. -/
structure Listing (query : Query) (combinations : List FieldMap) : Prop where
  inOrder : List.Forall₂ (fun positions combination =>
    Taken query.pairs positions combination.pairs) (readings query.counts) combinations
  free : query.pairs = [] → combinations = [Entries.empty]
  stuck : 0 ∈ query.counts → combinations = []
  counted : combinations.length = query.cardinality
  refused : ∀ (template : Template) (fault : Failure), query.expand template = .error fault ↔
    ∃ name, query.names.find? (fun name => name ∉ template.fields) = some name ∧
      fault = .misfit (.notAField name template.pattern template.fields)
  expanded : ∀ (template : Template) (patterns : List String),
    query.expand template = .ok patterns ↔
      (∀ name ∈ query.names, name ∈ template.fields) ∧
        List.Forall₂ (Sought template) combinations patterns

theorem listing_product {query : Query} (counted : total query.counts < countBound)
    (listable : query.listable = true) : query.Listing query.product where
  inOrder := forall₂_product query
  free := by
    intro free
    have none : lists query = [] := by rw [lists, free, List.map_nil]
    rw [product, none]
    rfl
  stuck := by
    intro stuck
    rw [← List.length_eq_zero_iff, length_product, total_of_zero_mem stuck]
  counted := by rw [length_product, cardinality_of_lt counted]
  refused := by
    intro template fault
    simp only [expand_eq_error, listable, reduceCtorEq, false_and, and_false, or_false]
  expanded := by
    intro template patterns
    have same : Sought template = fun combination pattern =>
        template.build (filled template.fields combination) = .ok pattern :=
      funext₂ fun _ _ => propext sought_iff
    rw [same, expand_eq_ok]
    simp only [listable, true_and]

/-- A query stands for the product of its candidates in the order of an odometer, as far as room can
be set aside for it. -/
theorem expand_along_odometer (query : Query) :
    (∀ positions, positions ∈ readings query.counts ↔ Within query.counts positions) ∧
      (readings query.counts).Pairwise Before ∧
      (0 ∈ query.counts ∨ total query.counts * combinationBytes < memoryBound →
        ∃ combinations, query.combinations = .ok combinations ∧ query.Listing combinations) ∧
      (0 ∉ query.counts → memoryBound ≤ total query.counts * combinationBytes →
        total query.counts < countBound →
        query.combinations = .error .tooManyCombinations ∧
          ∀ (template : Template) (fault : Failure), query.expand template = .error fault ↔
            (∃ name, query.names.find? (fun name => name ∉ template.fields) = some name ∧
              fault = .misfit (.notAField name template.pattern template.fields)) ∨
            (∀ name ∈ query.names, name ∈ template.fields) ∧ fault = .tooManyCombinations) := by
  refine ⟨fun positions => mem_readings, pairwise_readings _, fun room => ?_,
    fun filled large counted => ?_⟩
  · have counted : total query.counts < countBound := by
      rcases room with stuck | fits
      · rw [total_of_zero_mem stuck]
        decide
      · simp only [combinationBytes, memoryBound] at fits
        simp only [countBound, UInt64.size]
        omega
    have listable := (listable_iff counted).mpr room
    exact ⟨_, combinations_eq_ok.mpr ⟨listable, rfl⟩, listing_product counted listable⟩
  · have large : query.listable = false := by
      rw [← Bool.not_eq_true, listable_iff counted]
      rintro (stuck | fits)
      · exact filled stuck
      · exact absurd fits (Nat.not_lt.mpr large)
    refine ⟨combinations_eq_error.mpr ⟨large, rfl⟩, fun template fault => ?_⟩
    simp only [expand_eq_error, large, true_and]

/-- Two candidates for each of many fields are counted, but there is no room for all combinations. -/
theorem combinations_of_many_fields :
    ¬ ∀ query : Query, total query.counts < countBound →
      ∃ combinations, query.combinations = .ok combinations := by
  intro always
  let query : Query := Entries.ofList ((List.range 63).map fun number =>
    (String.ofList (List.replicate (number + 1) 'f'), .list ["x", "y"]))
  have large : query.listable = false := by decide +kernel
  obtain ⟨combinations, listed⟩ := always query (by decide +kernel)
  rw [combinations_eq_error.mpr ⟨large, rfl⟩] at listed
  cases listed

end PathCatalog.Query
