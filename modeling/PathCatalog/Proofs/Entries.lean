import Mathlib.Data.List.Induction
import Mathlib.Data.List.Nodup
import PathCatalog.Entries

namespace PathCatalog

variable {Value : Type}

theorem place_of_not_mem {name : String} {value : Value} {pairs : List (String × Value)}
    (absent : name ∉ pairs.map Prod.fst) : place name value pairs = pairs ++ [(name, value)] := by
  induction pairs with
  | nil => rfl
  | cons pair rest ih =>
      rw [List.map_cons, List.mem_cons, not_or] at absent
      rw [place, if_neg (Ne.symm absent.1), ih absent.2, List.cons_append]

theorem lookup_cons_of_ne {Name : Type} [BEq Name] [LawfulBEq Name] {name other : Name}
    (different : name ≠ other) (value : Value) (rest : List (Name × Value)) :
    ((other, value) :: rest).lookup name = rest.lookup name := by
  rw [List.lookup_cons, beq_eq_false_iff_ne.mpr different]

namespace Entries

/-- Setting distinct new names adds their pairs at the end. -/
theorem pairs_foldl_set {base : Entries Value} {pairs : List (String × Value)}
    (distinct : (base.pairs.map Prod.fst ++ pairs.map Prod.fst).Nodup) :
    (pairs.foldl (fun entries pair => entries.set pair.1 pair.2) base).pairs =
      base.pairs ++ pairs := by
  induction pairs generalizing base with
  | nil => simp
  | cons pair rest ih =>
      have absent : pair.1 ∉ base.pairs.map Prod.fst := by
        intro present
        exact (List.nodup_append.mp distinct).2.2 _ present _ (by simp) rfl
      have added : (base.set pair.1 pair.2).pairs = base.pairs ++ [pair] := place_of_not_mem absent
      have same : (base.set pair.1 pair.2).pairs.map Prod.fst ++ rest.map Prod.fst =
          base.pairs.map Prod.fst ++ (pair :: rest).map Prod.fst := by
        rw [added, List.map_append, List.append_assoc]
        rfl
      rw [List.foldl_cons, ih (by rwa [same]), added, List.append_assoc]
      rfl

/-- A list with distinct names is kept as it stands. -/
theorem pairs_ofList {pairs : List (String × Value)} (distinct : (pairs.map Prod.fst).Nodup) :
    (ofList pairs).pairs = pairs := by
  have start : ((empty : Entries Value).pairs.map Prod.fst ++ pairs.map Prod.fst).Nodup := distinct
  exact pairs_foldl_set start

/-- Overrides of other names come after the entries. -/
theorem pairs_merged {base overrides : Entries Value}
    (apart : ∀ name ∈ base.names, name ∉ overrides.names) :
    (base.merged overrides).pairs = base.pairs ++ overrides.pairs := by
  apply pairs_foldl_set
  refine List.nodup_append.mpr ⟨base.distinct, overrides.distinct, ?_⟩
  intro name here other there same
  exact apart name here (same ▸ there)

end Entries

/-- After a name is set, it has its value, and the other names have theirs. -/
theorem lookup_place (name : String) (value : Value) (pairs : List (String × Value))
    (other : String) :
    (place name value pairs).lookup other =
      if other = name then some value else pairs.lookup other := by
  induction pairs with
  | nil =>
      by_cases same : other = name
      · rw [if_pos same, same, place, List.lookup_cons_self]
      · rw [if_neg same, place, lookup_cons_of_ne same]
  | cons pair rest ih =>
      obtain ⟨first, here⟩ := pair
      rw [place]
      by_cases set : first = name
      · subst set
        rw [if_pos rfl]
        by_cases same : other = first
        · rw [if_pos same, same, List.lookup_cons_self]
        · rw [if_neg same, lookup_cons_of_ne same, lookup_cons_of_ne same]
      · rw [if_neg set]
        by_cases same : other = first
        · rw [same, if_neg set, List.lookup_cons_self, List.lookup_cons_self]
        · rw [lookup_cons_of_ne same, lookup_cons_of_ne same, ih]

/-- Where names are distinct, a look-up finds every pair. -/
theorem lookup_eq_some_iff_mem {Name : Type} [BEq Name] [LawfulBEq Name]
    {pairs : List (Name × Value)} (distinct : (pairs.map Prod.fst).Nodup) {name : Name}
    {value : Value} :
    pairs.lookup name = some value ↔ (name, value) ∈ pairs := by
  induction pairs with
  | nil => simp
  | cons pair rest ih =>
      rw [List.map_cons, List.nodup_cons] at distinct
      obtain ⟨other, here⟩ := pair
      rw [List.mem_cons, Prod.mk.injEq]
      by_cases same : name = other
      · subst same
        have absent : (name, value) ∉ rest := fun member =>
          distinct.1 (List.mem_map.mpr ⟨_, member, rfl⟩)
        simp [absent, eq_comm]
      · rw [lookup_cons_of_ne same, ih distinct.2]
        simp [same]

theorem Entries.get?_eq_some_iff {entries : Entries Value} {name : String} {value : Value} :
    entries.get? name = some value ↔ (name, value) ∈ entries.pairs :=
  lookup_eq_some_iff_mem entries.distinct

theorem Entries.exists_get? {entries : Entries Value} {name : String}
    (named : name ∈ entries.names) : ∃ value, entries.get? name = some value := by
  obtain ⟨pair, member, rfl⟩ := List.mem_map.mp named
  exact ⟨pair.2, Entries.get?_eq_some_iff.mpr member⟩

/-- Entries are known from the order of their names and from their values. -/
theorem Entries.map_some_pairs (entries : Entries Value) : entries.pairs.map some =
    entries.names.map fun name => (entries.get? name).map (Prod.mk name) := by
  rw [Entries.names, List.map_map]
  refine List.map_congr_left fun pair member => ?_
  have present : entries.get? pair.1 = some pair.2 := Entries.get?_eq_some_iff.mpr member
  simp [present]

theorem Entries.eq_of_get? {left right : Entries Value} (names : left.names = right.names)
    (held : ∀ name, left.get? name = right.get? name) : left = right := by
  apply Entries.ext
  apply List.map_injective_iff.mpr fun _ _ => Option.some.inj
  simp only [map_some_pairs, names, held]

namespace Entries

/-- The last value of a name counts, and without any it is the one from before. -/
theorem get?_foldl_set (base : Entries Value) (pairs : List (String × Value)) (name : String) :
    (pairs.foldl (fun entries pair => entries.set pair.1 pair.2) base).get? name =
      (pairs.reverse.lookup name).or (base.get? name) := by
  induction pairs using List.reverseRecOn with
  | nil => rfl
  | append_singleton pairs pair ih =>
      rw [List.foldl_append, List.foldl_cons, List.foldl_nil, List.reverse_concat, get?, set,
        lookup_place, ← get?, ih]
      by_cases same : name = pair.1
      · rw [if_pos same, same, List.lookup_cons_self, Option.some_or]
      · rw [if_neg same, lookup_cons_of_ne same]

theorem get?_ofList (pairs : List (String × Value)) (name : String) :
    (ofList pairs).get? name = pairs.reverse.lookup name :=
  (get?_foldl_set empty pairs name).trans (Option.or_none ..)

/-- Overrides go before the entries. -/
theorem get?_merged (base overrides : Entries Value) (name : String) :
    (base.merged overrides).get? name = (overrides.get? name).or (base.get? name) := by
  have reversed : (overrides.pairs.reverse.map Prod.fst).Nodup := by
    rw [List.map_reverse]
    exact List.nodup_reverse.mpr overrides.distinct
  have same : overrides.pairs.reverse.lookup name = overrides.get? name := by
    refine Option.ext fun value => ?_
    rw [lookup_eq_some_iff_mem reversed, List.mem_reverse, get?_eq_some_iff]
  rw [merged, get?_foldl_set, same]

/-- Every name has the place where it came first. -/
theorem names_ofList (pairs : List (String × Value)) :
    (ofList pairs).names = (pairs.map Prod.fst).eraseDups := by
  induction pairs using List.reverseRecOn with
  | nil => rfl
  | append_singleton pairs pair ih =>
      have kept : (ofList (pairs ++ [pair])).names =
          (place pair.1 pair.2 (ofList pairs).pairs).map Prod.fst := by
        rw [ofList, List.foldl_append]
        rfl
      rw [kept, List.map_append, List.eraseDups_append, ← ih]
      by_cases known : pair.1 ∈ pairs.map Prod.fst
      · have present : pair.1 ∈ (ofList pairs).names := by rwa [ih, List.mem_eraseDups]
        rw [names_place_of_mem present]
        simp [names, List.removeAll, List.mem_map.mp known]
      · have absent : pair.1 ∉ (ofList pairs).names := by rwa [ih, List.mem_eraseDups]
        rw [names_place_of_not_mem absent]
        simp [names, List.removeAll, known, List.eraseDups_cons]

/-- What a list is set to is known from the first places and the last values of its names. -/
theorem ofList_eq_iff {pairs : List (String × Value)} {entries : Entries Value} :
    ofList pairs = entries ↔ entries.names = (pairs.map Prod.fst).eraseDups ∧
      ∀ name, entries.get? name = pairs.reverse.lookup name := by
  constructor
  · intro same
    rw [← same]
    exact ⟨names_ofList pairs, get?_ofList pairs⟩
  · intro holds
    obtain ⟨named, held⟩ := holds
    refine eq_of_get? ((names_ofList pairs).trans named.symm) fun name => ?_
    rw [get?_ofList, held]

end Entries

theorem lookup_map_values {Other : Type} (change : Value → Other) (pairs : List (String × Value))
    (name : String) :
    (pairs.map (Prod.map id change)).lookup name = (pairs.lookup name).map change := by
  induction pairs with
  | nil => rfl
  | cons pair rest ih =>
      obtain ⟨first, value⟩ := pair
      rw [List.map_cons, Prod.map_apply, id]
      by_cases same : name = first
      · rw [same, List.lookup_cons_self, List.lookup_cons_self, Option.map_some]
      · rw [lookup_cons_of_ne same, lookup_cons_of_ne same, ih]

theorem idxOf?_of_mem {names : List String} {name : String} (member : name ∈ names) :
    names.idxOf? name = some (names.idxOf name) := by
  obtain ⟨index, found⟩ := Option.isSome_iff_exists.mp (List.isSome_idxOf?.mpr member)
  rw [List.idxOf_eq_getD_idxOf?, found]
  rfl

theorem names_zip_sublist (names : List String) (values : List Value) :
    ((names.zip values).map Prod.fst).Sublist names := by
  induction names generalizing values with
  | nil => exact List.Sublist.refl []
  | cons name names ih =>
      cases values with
      | nil => exact List.nil_sublist _
      | cons value values => exact (ih values).cons_cons name

/-- A name's value stands where the name does. -/
theorem lookup_zip (names : List String) (values : List Value) (name : String) :
    (names.zip values).lookup name = (names.idxOf? name).bind fun index => values[index]? := by
  induction names generalizing values with
  | nil => rfl
  | cons other names ih =>
      cases values with
      | nil => simp
      | cons value values =>
          rw [List.zip_cons_cons, List.idxOf?_cons]
          by_cases same : other = name
          · simp [same]
          · rw [lookup_cons_of_ne (Ne.symm same), ih, if_neg (by simpa using same),
              Option.bind_map]
            rfl

/-- Aligned values of distinct names are looked up by position. -/
theorem Entries.get?_ofList_zip {names : List String} (distinct : names.Nodup)
    (values : List Value) (name : String) :
    (Entries.ofList (names.zip values)).get? name =
      (names.idxOf? name).bind fun index => values[index]? := by
  have kept : ((names.zip values).map Prod.fst).Nodup := by
    exact distinct.sublist (names_zip_sublist names values)
  rw [Entries.get?, Entries.pairs_ofList kept, lookup_zip]

/-- Values that a function gives to distinct names are looked up by the function. -/
theorem Entries.get?_ofList_map {names : List String} (distinct : names.Nodup)
    (value : String → Value) {name : String} (member : name ∈ names) :
    (Entries.ofList (names.map fun name => (name, value name))).get? name = some (value name) := by
  have kept : ((names.map fun name => (name, value name)).map Prod.fst).Nodup := by
    simpa [Function.comp_def] using distinct
  rw [Entries.get?, Entries.pairs_ofList kept, List.lookup_graph _ member]

end PathCatalog
