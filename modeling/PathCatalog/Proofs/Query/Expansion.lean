import Mathlib.Data.List.Forall2
import Mathlib.Data.Option.Basic
import PathCatalog.Proofs.Entries
import PathCatalog.Proofs.Outcome
import PathCatalog.Proofs.Template.Naming
import PathCatalog.Query

namespace PathCatalog

/-- Values that go by the name alone are looked up where the name has some value. -/
theorem lookup_map_names {Value : Type} (value : String → String) (pairs : List (String × Value))
    (name : String) :
    (pairs.map fun pair => (pair.1, value pair.1)).lookup name =
      (pairs.lookup name).map fun _ => value name := by
  induction pairs with
  | nil => rfl
  | cons pair rest ih =>
      obtain ⟨other, held⟩ := pair
      rw [List.map_cons]
      by_cases here : name = other
      · simp [here]
      · rw [lookup_cons_of_ne here, lookup_cons_of_ne here, ih]

theorem Candidates.accepts_iff {candidates : Candidates} {value : String} :
    candidates.accepts value = true ↔ value ∈ candidates.values :=
  List.contains_iff_mem

namespace Query

theorem mem_choices {lists : List (String × List String)} {choice : List (String × String)} :
    choice ∈ choices lists ↔
      List.Forall₂ (fun pair list => pair.1 = list.1 ∧ pair.2 ∈ list.2) choice lists := by
  induction lists generalizing choice with
  | nil => simp [choices]
  | cons list rest ih =>
      obtain ⟨name, values⟩ := list
      rw [choices, List.mem_flatMap, List.forall₂_cons_right_iff]
      constructor
      · intro holds
        obtain ⟨value, candidate, member⟩ := holds
        obtain ⟨others, chosen, rfl⟩ := List.mem_map.mp member
        exact ⟨(name, value), others, ⟨rfl, candidate⟩, ih.mp chosen, rfl⟩
      · intro holds
        obtain ⟨⟨_, value⟩, others, ⟨rfl, candidate⟩, chosen, rfl⟩ := holds
        exact ⟨value, candidate, List.mem_map_of_mem (ih.mpr chosen)⟩

/-- One accepted value for every constraint, in the order of the constraints. -/
def Chosen (combination : List (String × String)) (constraints : List (String × Candidates)) :
    Prop :=
  List.Forall₂ (fun pair constraint => pair.1 = constraint.1 ∧ constraint.2.accepts pair.2 = true)
    combination constraints

theorem Chosen.names_eq {combination : List (String × String)}
    {constraints : List (String × Candidates)} (chosen : Chosen combination constraints) :
    combination.map Prod.fst = constraints.map Prod.fst := by
  induction chosen with
  | nil => rfl
  | cons same _ ih => rw [List.map_cons, List.map_cons, same.1, ih]

/-- A name has a chosen value when it has a constraint, and the constraint accepts the value. -/
theorem Chosen.lookup {combination : List (String × String)}
    {constraints : List (String × Candidates)} (chosen : Chosen combination constraints)
    (name : String) :
    Option.Rel (fun value candidates => candidates.accepts value = true)
      (combination.lookup name) (constraints.lookup name) := by
  induction chosen with
  | nil => exact .none
  | @cons pair constraint others rest same _ ih =>
      obtain ⟨other, value⟩ := pair
      obtain ⟨asked, candidates⟩ := constraint
      obtain ⟨rfl, accepted⟩ := same
      by_cases here : name = other
      · subst here
        rw [List.lookup_cons_self, List.lookup_cons_self]
        exact .some accepted
      · rwa [lookup_cons_of_ne here, lookup_cons_of_ne here]

/-- The combinations are the maps that choose an accepted value for every constraint. -/
theorem mem_product {query : Query} {combination : FieldMap} :
    combination ∈ query.product ↔ Chosen combination.pairs query.pairs := by
  have reworded (choice : List (String × String)) :
      choice ∈ choices (lists query) ↔ Chosen choice query.pairs := by
    rw [mem_choices, lists, List.forall₂_map_right_iff, Chosen]
    simp only [Candidates.accepts_iff]
  have kept {choice : List (String × String)} (chosen : Chosen choice query.pairs) :
      (Entries.ofList choice).pairs = choice := by
    apply Entries.pairs_ofList
    rw [chosen.names_eq]
    exact query.distinct
  rw [product, List.mem_map]
  constructor
  · intro holds
    obtain ⟨choice, member, rfl⟩ := holds
    have chosen := (reworded choice).mp member
    rwa [kept chosen]
  · intro chosen
    exact ⟨combination.pairs, (reworded _).mpr chosen, Entries.ext (kept chosen)⟩

/-- A combination holds an accepted value for every constraint and nothing else. -/
theorem related_of_mem {query : Query} {combination : FieldMap}
    (member : combination ∈ query.product) (name : String) :
    Option.Rel (fun value candidates => candidates.accepts value = true)
      (combination.get? name) (query.get? name) :=
  (mem_product.mp member).lookup name

theorem accepts_of_chosen {query : Query} {combination : FieldMap}
    (member : combination ∈ query.product) {name value : String}
    (chosen : combination.get? name = some value) :
    ∃ candidates, query.get? name = some candidates ∧ candidates.accepts value = true := by
  have related := related_of_mem member name
  rw [chosen] at related
  generalize query.get? name = asked at related ⊢
  cases related with
  | some accepted => exact ⟨_, rfl, accepted⟩

theorem chosen_of_asked {query : Query} {combination : FieldMap}
    (member : combination ∈ query.product) {name : String} {candidates : Candidates}
    (asked : query.get? name = some candidates) :
    ∃ value, combination.get? name = some value ∧ candidates.accepts value = true := by
  have related := related_of_mem member name
  rw [asked] at related
  generalize combination.get? name = chosen at related ⊢
  cases related with
  | some accepted => exact ⟨_, rfl, accepted⟩

/-- Any accepted values for the constraints make a combination. -/
theorem exists_combination {query : Query} (value : String → String)
    (accepted : ∀ pair ∈ query.pairs, pair.2.accepts (value pair.1) = true) :
    ∃ combination ∈ query.product,
      ∀ name, combination.get? name = (query.get? name).map fun _ => value name := by
  let pairs := query.pairs.map fun pair => (pair.1, value pair.1)
  have names : pairs.map Prod.fst = query.pairs.map Prod.fst := by
    simp [pairs, Function.comp_def]
  refine ⟨⟨pairs, names ▸ query.distinct⟩, mem_product.mpr ?_, fun name => ?_⟩
  · rw [Chosen, List.forall₂_map_left_iff, List.forall₂_same]
    exact fun pair member => ⟨rfl, accepted pair member⟩
  · exact lookup_map_names value query.pairs name

/-- Every field of the template has a value in a filled combination. -/
theorem get?_filled {fields : List String} (distinct : fields.Nodup) (combination : FieldMap)
    {name : String} (member : name ∈ fields) :
    (filled fields combination).get? name = some ((combination.get? name).getD wildcard) :=
  Entries.get?_ofList_map distinct _ member

theorem validateFields_eq_ok {query : Query} {fields : List String} {context : String} :
    query.validateFields fields context = .ok () ↔ ∀ name ∈ query.names, name ∈ fields := by
  rw [validateFields]
  cases found : query.names.find? fun name => !fields.contains name with
  | none =>
      rw [List.find?_eq_none] at found
      simpa using found
  | some name =>
      have member := List.mem_of_find?_eq_some found
      have stray := List.find?_some found
      simp only [reduceCtorEq, false_iff]
      intro all
      simp [all name member] at stray

theorem buildEach_eq_ok {template : Template} {combinations : List FieldMap}
    {patterns : List String} :
    buildEach template combinations = .ok patterns ↔
      List.Forall₂ (fun combination pattern =>
        template.build (filled template.fields combination) = .ok pattern)
        combinations patterns := by
  induction combinations generalizing patterns with
  | nil =>
      rw [List.forall₂_nil_left_iff, buildEach, Except.ok.injEq, eq_comm]
  | cons combination rest ih =>
      rw [buildEach, bind_eq_ok, List.forall₂_cons_left_iff]
      constructor
      · intro holds
        obtain ⟨pattern, built, others⟩ := holds
        obtain ⟨names, later, same⟩ := bind_eq_ok.mp others
        exact ⟨pattern, names, built, ih.mp later, (Except.ok.inj same).symm⟩
      · intro holds
        obtain ⟨pattern, names, built, later, rfl⟩ := holds
        exact ⟨pattern, built, bind_eq_ok.mpr ⟨names, ih.mpr later, rfl⟩⟩

theorem combinations_eq_ok {query : Query} {combinations : List FieldMap} :
    query.combinations = .ok combinations ↔
      query.listable = true ∧ query.product = combinations := by
  rw [Query.combinations]
  split
  next fits => simp [fits]
  next large => simp [large]

theorem combinations_eq_error {query : Query} {fault : Failure} :
    query.combinations = .error fault ↔
      query.listable = false ∧ fault = .tooManyCombinations := by
  rw [Query.combinations]
  split
  next fits => simp [fits]
  next large => simp [large, eq_comm]

/-- A query expands when it names fields only and its combinations can be listed. -/
theorem expand_eq_ok {template : Template} {query : Query} {patterns : List String} :
    query.expand template = .ok patterns ↔
      (∀ name ∈ query.names, name ∈ template.fields) ∧ query.listable = true ∧
        List.Forall₂ (fun combination pattern =>
          template.build (filled template.fields combination) = .ok pattern)
          query.product patterns := by
  simp only [expand, bind_eq_ok, combinations_eq_ok, buildEach_eq_ok]
  constructor
  · intro holds
    obtain ⟨_, valid, _, ⟨fits, rfl⟩, built⟩ := holds
    exact ⟨validateFields_eq_ok.mp valid, fits, built⟩
  · intro holds
    obtain ⟨known, fits, built⟩ := holds
    exact ⟨(), validateFields_eq_ok.mpr known, _, ⟨fits, rfl⟩, built⟩

theorem of_validateFields_eq_error {query : Query} {fields : List String} {context : String}
    {fault : Failure} (failed : query.validateFields fields context = .error fault) :
    ∃ name ∈ query.names, name ∉ fields ∧ fault = .misfit (.notAField name context fields) := by
  rw [validateFields] at failed
  cases found : query.names.find? fun name => !fields.contains name with
  | none =>
      rw [found] at failed
      cases failed
  | some name =>
      have stray := List.find?_some found
      rw [found] at failed
      exact ⟨name, List.mem_of_find?_eq_some found, by simpa using stray,
        (Except.error.inj failed).symm⟩

/-- A filled combination has a value for every field, so it builds a search pattern. -/
theorem exists_build_filled (template : Template) (combination : FieldMap) :
    ∃ pattern, template.build (filled template.fields combination) = .ok pattern :=
  Template.exists_build fun _ member => ⟨_, get?_filled template.nodup_fields combination member⟩

theorem exists_buildEach (template : Template) (combinations : List FieldMap) :
    ∃ patterns, buildEach template combinations = .ok patterns := by
  induction combinations with
  | nil => exact ⟨[], rfl⟩
  | cons combination rest ih =>
      obtain ⟨pattern, built⟩ := exists_build_filled template combination
      obtain ⟨patterns, others⟩ := ih
      exact ⟨pattern :: patterns, bind_eq_ok.mpr ⟨pattern, built, bind_eq_ok.mpr ⟨_, others, rfl⟩⟩⟩

/-- A query that does not expand names what is not a field, or has too many combinations. -/
theorem of_expand_eq_error {template : Template} {query : Query} {fault : Failure}
    (failed : query.expand template = .error fault) :
    (∃ name ∈ query.names, name ∉ template.fields ∧
      fault = .misfit (.notAField name template.pattern template.fields)) ∨
    (∀ name ∈ query.names, name ∈ template.fields) ∧ query.listable = false ∧
      fault = .tooManyCombinations := by
  rcases bind_eq_error.mp failed with invalid | ⟨_, valid, later⟩
  · exact .inl (of_validateFields_eq_error invalid)
  · rcases bind_eq_error.mp later with large | ⟨combinations, _, unbuilt⟩
    · exact .inr ⟨validateFields_eq_ok.mp valid, combinations_eq_error.mp large⟩
    · obtain ⟨patterns, built⟩ := exists_buildEach template combinations
      rw [built] at unbuilt
      cases unbuilt

/-- The search patterns are the names that the filled combinations build. -/
theorem mem_of_expand {template : Template} {query : Query} {patterns : List String}
    (expanded : query.expand template = .ok patterns) {pattern : String} :
    pattern ∈ patterns ↔ ∃ combination ∈ query.product,
      template.build (filled template.fields combination) = .ok pattern :=
  mem_of_forall₂_ok (expand_eq_ok.mp expanded).2.2 pattern

end Query

end PathCatalog
