import PathCatalog.Proofs.Query.Expansion
import PathCatalog.Proofs.Table.Search

namespace PathCatalog.Table

variable {table : Table} {first second query : Query} {row : Row}

/-- A row meets a query when it has one of the candidates in every constrained column. -/
theorem meets_iff_mem :
    table.meets query row = true ↔ ∀ pair ∈ query.pairs, table.value row pair.1 ∈ pair.2.values := by
  simp only [meets_eq_true, Candidates.accepts_iff]

/-- Constraints on different fields are met together when they are met one by one. -/
theorem meets_merged (apart : ∀ name ∈ first.names, name ∉ second.names) :
    table.meets (first.merged second) = fun row =>
      table.meets first row && table.meets second row := by
  funext row
  rw [meets, Entries.pairs_merged apart, List.all_append]
  rfl

theorem known_of_names (known : ∀ name ∈ query.names, name ∈ table.columns) :
    ∀ pair ∈ query.pairs, pair.1 ∈ table.columns :=
  List.forall_mem_map.mp known

/-- The second search goes through the rows that the first one has kept. -/
theorem search_search (asked : first.isEmpty = false) (again : second.isEmpty = false)
    (known : ∀ name ∈ first.names, name ∈ table.columns)
    (others : ∀ name ∈ second.names, name ∈ table.columns) :
    (table.search first >>= fun kept => kept.search second) =
      .ok ⟨table.columns, table.rows.filter fun row =>
        table.meets first row && table.meets second row⟩ := by
  have later : (⟨table.columns, table.rows.filter (table.meets first)⟩ : Table).search second =
      .ok ⟨table.columns, (table.rows.filter (table.meets first)).filter (table.meets second)⟩ :=
    search_eq again (known_of_names others)
  rw [search_eq asked (known_of_names known)]
  change Table.search _ second = _
  simp only [later, List.filter_filter, Bool.and_comm]

/-- Both queries are asked at once when they constrain different fields. -/
theorem search_merged (asked : first.isEmpty = false)
    (known : ∀ name ∈ first.names, name ∈ table.columns)
    (others : ∀ name ∈ second.names, name ∈ table.columns)
    (apart : ∀ name ∈ first.names, name ∉ second.names) :
    table.search (first.merged second) =
      .ok ⟨table.columns, table.rows.filter fun row =>
        table.meets first row && table.meets second row⟩ := by
  have pairs : (first.merged second).pairs = first.pairs ++ second.pairs :=
    Entries.pairs_merged apart
  have filled : (first.merged second).isEmpty = false := by
    rw [Entries.isEmpty, List.isEmpty_eq_false_iff] at asked ⊢
    rw [pairs]
    exact List.append_ne_nil_of_left_ne_nil asked _
  have columns : ∀ pair ∈ (first.merged second).pairs, pair.1 ∈ table.columns := by
    rw [pairs, List.forall_mem_append]
    exact ⟨known_of_names known, known_of_names others⟩
  rw [search_eq filled columns, meets_merged apart]

/-- The first constraint on a field that is no column refuses the others with it. -/
theorem conditions_eq_error {pairs : List (String × Candidates)} {missing : String}
    (found : (pairs.map Prod.fst).find? (fun name => name ∉ table.columns) = some missing) :
    table.conditions pairs = .error (.misfit (.unknownColumn missing table.columns)) := by
  induction pairs with
  | nil => cases found
  | cons pair rest ih =>
      rw [List.map_cons, List.find?_cons] at found
      by_cases column : pair.1 ∈ table.columns
      · rw [conditions, columnIndex_of_mem column, ih (by simpa [column] using found)]
        rfl
      · obtain rfl : pair.1 = missing := by simpa [column] using found
        have absent : table.columns.idxOf? pair.1 = none := List.idxOf?_eq_none_iff.mpr column
        rw [conditions, columnIndex, absent]
        rfl

/-- A search for the values of a field that is no column is refused. -/
theorem search_of_unknown {name : String} (asked : name ∈ query.names)
    (absent : name ∉ table.columns) :
    ∃ missing, query.names.find? (fun name => name ∉ table.columns) = some missing ∧
      table.search query = .error (.misfit (.unknownColumn missing table.columns)) := by
  obtain ⟨missing, found⟩ := Option.isSome_iff_exists.mp <| List.find?_isSome
    (p := fun name => decide (name ∉ table.columns)).mpr ⟨name, asked, by simpa using absent⟩
  have filled : query.isEmpty = false := by
    rw [Entries.isEmpty, List.isEmpty_eq_false_iff]
    intro none
    rw [Entries.names, none] at asked
    cases asked
  refine ⟨missing, found, ?_⟩
  rw [search, filled, conditions_eq_error found]
  rfl

/-- Two searches keep the same rows in either order, and as one search with both queries if they
share no field. -/
theorem search_composes (table : Table) :
    (∀ first second : Query, first.isEmpty = false → second.isEmpty = false →
      (∀ name ∈ first.names, name ∈ table.columns) →
      (∀ name ∈ second.names, name ∈ table.columns) →
      ∃ found : Table, (table.search first >>= fun kept => kept.search second) = .ok found ∧
        (table.search second >>= fun kept => kept.search first) = .ok found ∧
        found.columns = table.columns ∧
        (found.rows = table.rows.filter fun row =>
          (∀ pair ∈ first.pairs, table.value row pair.1 ∈ pair.2.values) ∧
            ∀ pair ∈ second.pairs, table.value row pair.1 ∈ pair.2.values) ∧
        ((∀ name ∈ first.names, name ∉ second.names) →
          table.search (first.merged second) = .ok found)) ∧
      ∀ (query : Query) (name : String), name ∈ query.names → name ∉ table.columns →
        ∃ missing, query.names.find? (fun name => name ∉ table.columns) = some missing ∧
          table.search query = .error (.misfit (.unknownColumn missing table.columns)) := by
  refine ⟨fun first second asked again known others => ?_, fun query name asked absent => ?_⟩
  · refine ⟨_, search_search asked again known others, ?_, rfl, ?_, ?_⟩
    · rw [search_search again asked others known]
      simp only [Bool.and_comm]
    · refine List.filter_congr fun row _ => ?_
      rw [Bool.eq_iff_iff, Bool.and_eq_true, decide_eq_true_eq, meets_iff_mem, meets_iff_mem]
    · exact search_merged asked known others
  · exact search_of_unknown asked absent

/-- One row has a candidate in each of the three columns, and it comes twice. -/
theorem search_composes_three_columns :
    ∃ found : Table, ((⟨["model", "number", "res"],
        [⟨"a", ["x", "1", "h"]⟩, ⟨"b", ["y", "1", "d"]⟩, ⟨"c", ["z", "1", "d"]⟩,
          ⟨"b", ["y", "1", "d"]⟩, ⟨"e", ["y", "2", "d"]⟩]⟩ : Table).search
            ⟨[("model", .list ["y", "x"])], by decide⟩ >>= fun kept =>
              kept.search ⟨[("number", .one "1"), ("res", .list ["d", "m"])], by decide⟩) =
          .ok found ∧ found.rows = [⟨"b", ["y", "1", "d"]⟩, ⟨"b", ["y", "1", "d"]⟩] := by
  obtain ⟨found, reached, _, _, rows, _⟩ := (search_composes ⟨["model", "number", "res"],
    [⟨"a", ["x", "1", "h"]⟩, ⟨"b", ["y", "1", "d"]⟩, ⟨"c", ["z", "1", "d"]⟩,
      ⟨"b", ["y", "1", "d"]⟩, ⟨"e", ["y", "2", "d"]⟩]⟩).1 ⟨[("model", .list ["y", "x"])], by decide⟩
    ⟨[("number", .one "1"), ("res", .list ["d", "m"])], by decide⟩ rfl rfl (by decide) (by decide)
  exact ⟨found, reached, rows.trans (by decide)⟩

end PathCatalog.Table
