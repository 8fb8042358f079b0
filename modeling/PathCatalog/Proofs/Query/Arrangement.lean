import Mathlib.Data.List.Perm.Basic
import Mathlib.Data.Multiset.Sections
import PathCatalog.Proofs.Query.Expansion

namespace PathCatalog.Query

/-- A combination holds a choice just as it was made. -/
theorem pairs_product (query : Query) :
    query.product.map Entries.pairs = choices (lists query) := by
  have kept : ∀ choice ∈ choices (lists query), (Entries.ofList choice).pairs = choice := by
    intro choice member
    have names : choice.map Prod.fst = (lists query).map Prod.fst := by
      rw [← List.forall₂_eq_eq_eq, List.forall₂_map_left_iff, List.forall₂_map_right_iff]
      exact (mem_choices.mp member).imp fun _ _ same => same.1
    apply Entries.pairs_ofList
    rw [names, lists, List.map_map]
    exact query.distinct
  rw [product, List.map_map]
  exact (List.map_congr_left kept).trans (List.map_id _)

/-- Two queries constrain the same fields by the same candidates, both in any order. -/
structure Permutes (query other : Query) : Prop where
  names : query.names.Perm other.names
  candidates : ∀ pair ∈ query.pairs, ∀ twin ∈ other.pairs, pair.1 = twin.1 →
    pair.2.values.Perm twin.2.values

instance (query other : Query) : Decidable (query.Permutes other) :=
  decidable_of_iff (query.names.Perm other.names ∧ ∀ pair ∈ query.pairs, ∀ twin ∈ other.pairs,
    pair.1 = twin.1 → pair.2.values.Perm twin.2.values)
    ⟨fun holds => ⟨holds.1, holds.2⟩, fun same => ⟨same.names, same.candidates⟩⟩

/-- The candidates of a list, each with the name of the field. -/
def alternatives (list : String × List String) : Multiset (String × String) :=
  Multiset.ofList (list.2.map (Prod.mk list.1))

/-- Without their order choices are the sections of the alternatives. -/
theorem coe_choices (lists : List (String × List String)) :
    Multiset.ofList ((choices lists).map Multiset.ofList) =
      Multiset.Sections (Multiset.ofList (lists.map alternatives)) := by
  induction lists with
  | nil => rfl
  | cons list rest ih =>
      obtain ⟨name, values⟩ := list
      rw [choices, List.map_cons, ← Multiset.cons_coe, Multiset.sections_cons, ← ih, alternatives]
      simp [List.map_flatMap, List.flatMap_map, Function.comp_def]

namespace Permutes

variable {query other : Query} (same : query.Permutes other)

include same

/-- Both queries offer the same alternatives, field by field. -/
theorem alternatives_perm :
    ((lists query).map alternatives).Perm ((lists other).map alternatives) := by
  have byName (query : Query) : (lists query).map alternatives = query.names.map fun name =>
      alternatives (name, ((query.get? name).map Candidates.values).getD []) := by
    rw [lists, Entries.names, List.map_map, List.map_map]
    refine List.map_congr_left fun pair member => ?_
    have asked : query.get? pair.1 = some pair.2 := Entries.get?_eq_some_iff.mpr member
    simp [asked]
  have fieldwise : ∀ name ∈ query.names,
      alternatives (name, ((query.get? name).map Candidates.values).getD []) =
        alternatives (name, ((other.get? name).map Candidates.values).getD []) := by
    intro name named
    obtain ⟨first, asked⟩ := Entries.exists_get? named
    obtain ⟨second, again⟩ := Entries.exists_get? (same.names.mem_iff.mp named)
    have values := same.candidates _ (Entries.get?_eq_some_iff.mp asked) _
      (Entries.get?_eq_some_iff.mp again) rfl
    rw [asked, again]
    exact Multiset.coe_eq_coe.mpr (values.map _)
  rw [byName query, byName other, List.map_congr_left fieldwise]
  exact same.names.map _

/-- Both queries have the same combinations, but for the order of the fields in each. -/
theorem product_perm :
    (query.product.map fun combination => Multiset.ofList combination.pairs).Perm
      (other.product.map fun combination => Multiset.ofList combination.pairs) := by
  have sections (query : Query) :
      Multiset.ofList (query.product.map fun combination =>
        Multiset.ofList combination.pairs) =
          Multiset.Sections (Multiset.ofList ((lists query).map alternatives)) := by
    rw [← coe_choices, ← pairs_product, List.map_map]
    rfl
  rw [← Multiset.coe_eq_coe, sections query, sections other,
    Multiset.coe_eq_coe.mpr same.alternatives_perm]

/-- Both queries have as many candidates, field by field. -/
theorem counts_perm : query.counts.Perm other.counts := by
  have sizes (query : Query) :
      query.counts = ((lists query).map alternatives).map Multiset.card := by
    simp [counts, lists, alternatives, Function.comp_def]
  rw [sizes query, sizes other]
  exact same.alternatives_perm.map _

theorem cardinality_eq : query.cardinality = other.cardinality := by
  rw [cardinality, cardinality, ← List.prod_eq_foldr, ← List.prod_eq_foldr,
    same.counts_perm.prod_eq]

/-- Either both queries have too many combinations or none has. -/
theorem listable_eq : query.listable = other.listable := by
  rw [listable, listable, same.cardinality_eq, same.counts_perm.contains_eq]

end Permutes

/-- The order in which a combination holds its values does not matter to a search pattern. -/
theorem filled_congr {first second : FieldMap} (same : first.pairs.Perm second.pairs)
    (fields : List String) : filled fields first = filled fields second := by
  have held (name : String) : first.get? name = second.get? name := by
    ext value
    rw [Entries.get?_eq_some_iff, Entries.get?_eq_some_iff, same.mem_iff]
  simp only [filled, held]

/-- The search patterns that a template makes of some values, in whatever order these are held. -/
def Searches (template : Template) (held : Multiset (String × String)) (pattern : String) : Prop :=
  ∃ combination : FieldMap, Multiset.ofList combination.pairs = held ∧
    template.build (filled template.fields combination) = .ok pattern

theorem rightUnique_searches (template : Template) : Relator.RightUnique (Searches template) := by
  intro held first second searches again
  obtain ⟨combination, rfl, built⟩ := searches
  obtain ⟨other, same, rebuilt⟩ := again
  rw [filled_congr (Multiset.coe_eq_coe.mp same), built] at rebuilt
  exact Except.ok.inj rebuilt

theorem searches_of_expand {template : Template} {query : Query} {patterns : List String}
    (expanded : query.expand template = .ok patterns) :
    List.Forall₂ (Searches template)
      (query.product.map fun combination => Multiset.ofList combination.pairs) patterns :=
  List.forall₂_map_left_iff.mpr ((expand_eq_ok.mp expanded).2.2.imp fun combination _ built =>
    ⟨combination, rfl, built⟩)

/-- Both queries make the same search patterns in some order. -/
theorem Permutes.expand_perm {query other : Query} (same : query.Permutes other)
    {template : Template} {patterns others : List String}
    (expanded : query.expand template = .ok patterns) (again : other.expand template = .ok others) :
    patterns.Perm others :=
  List.rel_perm_imp (rightUnique_searches template) (searches_of_expand expanded)
    (searches_of_expand again) same.product_perm

/-- A query is expanded when it constrains fields of the template and can be listed. -/
theorem exists_expand_iff {template : Template} {query : Query} :
    (∃ patterns, query.expand template = .ok patterns) ↔
      (∀ name ∈ query.names, name ∈ template.fields) ∧ query.listable = true := by
  constructor
  · intro holds
    obtain ⟨patterns, expanded⟩ := holds
    obtain ⟨known, fits, _⟩ := expand_eq_ok.mp expanded
    exact ⟨known, fits⟩
  · intro holds
    obtain ⟨known, fits⟩ := holds
    obtain ⟨patterns, built⟩ := exists_buildEach template query.product
    exact ⟨patterns, expand_eq_ok.mpr ⟨known, fits, buildEach_eq_ok.mp built⟩⟩

end PathCatalog.Query
