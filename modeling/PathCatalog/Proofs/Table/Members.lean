import PathCatalog.Proofs.Table.Labels

namespace PathCatalog

/-- Rows agree on some columns when they have the same values there. -/
def Table.AgreeOn (table : Table) (names : List String) (row other : Row) : Prop :=
  ∀ name ∈ names, table.value row name = table.value other name

instance (table : Table) (names : List String) (row other : Row) :
    Decidable (table.AgreeOn names row other) :=
  inferInstanceAs (Decidable (∀ name ∈ names, _))

/-- How many rows in front of the place of a row agree with it on some columns. -/
def Table.earlier (table : Table) (names : List String) (placed : Row × Nat) : Nat :=
  (table.rows.take placed.2).countP fun other => table.AgreeOn names placed.1 other

namespace Ensemble

section Counters

variable {counters : List (List String × Nat)} {key other : List String}
  {keys before rest : List (List String)}

theorem counterOf_cons {number : Nat} : counterOf ((key, number) :: counters) other =
    if other = key then number else counterOf counters other := by
  by_cases same : other = key
  · simp [counterOf, same]
  · rw [counterOf, lookup_cons_of_ne same, if_neg same, counterOf]

/-- Raising a counter leaves the others as they are. -/
theorem counterOf_raise : counterOf (raise key counters) other =
    counterOf counters other + if other = key then 1 else 0 := by
  induction counters with
  | nil => exact counterOf_cons.trans (Nat.zero_add _).symm
  | cons counter counters ih =>
      obtain ⟨first, number⟩ := counter
      rw [raise, counterOf_cons]
      by_cases here : first = key
      · subst here
        rw [if_pos rfl, counterOf_cons]
        split <;> rfl
      · rw [if_neg here, counterOf_cons, ih]
        split
        next same => rw [if_neg (same ▸ here), Nat.add_zero]
        next => rfl

/-- As long as the counters show what came before, every key is numbered with how often it did. -/
theorem occurrences_eq (shown : ∀ key, counterOf counters key = before.count key) :
    occurrences counters rest = (rest.zipIdx before.length).map fun placed =>
      ((before ++ rest).take placed.2).count placed.1 := by
  induction rest generalizing counters before with
  | nil => rfl
  | cons key rest ih =>
      have raised : ∀ other, counterOf (raise key counters) other =
          (before ++ [key]).count other := by
        intro other
        rw [counterOf_raise, shown, List.count_append, List.count_singleton]
        refine congrArg (_ + ·) (if_congr ?_ rfl rfl)
        rw [beq_iff_eq, eq_comm]
      rw [occurrences, ih raised, shown, List.zipIdx_cons, List.map_cons, List.take_left,
        List.length_append, List.length_singleton, ← List.append_cons]

/-- The numbers of a key count up from what its counter shows. -/
theorem numbers_of_key (counters : List (List String × Nat)) (keys : List (List String))
    (key : List String) :
    (((keys.zip (occurrences counters keys)).filter fun numbered => numbered.1 = key).map
      Prod.snd) = List.range' (counterOf counters key) (keys.count key) := by
  induction keys generalizing counters with
  | nil => rfl
  | cons first keys ih =>
      rw [occurrences, List.zip_cons_cons, List.filter_cons]
      by_cases here : first = key
      · subst here
        rw [if_pos (by simp), List.map_cons, ih, counterOf_raise, if_pos rfl, List.count_cons_self,
          List.range'_succ]
      · rw [if_neg (by simpa using here), ih, counterOf_raise, if_neg (Ne.symm here),
          List.count_cons_of_ne here, Nat.add_zero]

/-- No key has a number twice: its later numbers are greater. -/
theorem nodup_numbered (counters : List (List String × Nat)) (keys : List (List String)) :
    (keys.zip (occurrences counters keys)).Nodup := by
  induction keys generalizing counters with
  | nil => exact List.nodup_nil
  | cons key keys ih =>
      rw [occurrences, List.zip_cons_cons, List.nodup_cons]
      refine ⟨fun again => ?_, ih _⟩
      have later : counterOf counters key ∈
          (((keys.zip (occurrences (raise key counters) keys)).filter fun numbered =>
            numbered.1 = key).map Prod.snd) :=
        List.mem_map.mpr ⟨_, List.mem_filter.mpr ⟨again, by simp⟩, rfl⟩
      rw [numbers_of_key, counterOf_raise, if_pos rfl, List.mem_range'_1] at later
      omega

end Counters

section Groups

variable {table : Table} {names : List String}

/-- The values of a row in some columns. -/
def keyOf (table : Table) (names : List String) (row : Row) : List String :=
  names.map (table.value row)

theorem agreeOn_iff {row other : Row} :
    table.AgreeOn names row other ↔ keyOf table names other = keyOf table names row := by
  rw [keyOf, keyOf, List.map_inj_left]
  exact forall₂_congr fun _ _ => eq_comm

/-- A row is numbered with the number of earlier rows that agree with it. -/
theorem occurrences_rows (table : Table) (names : List String) :
    occurrences [] (table.rows.map (keyOf table names)) =
      table.rows.zipIdx.map (table.earlier names) := by
  rw [@occurrences_eq [] [] _ fun key => rfl, List.length_nil, List.zipIdx_map, List.map_map]
  refine List.map_congr_left fun placed _ => ?_
  rw [Function.comp_apply, List.nil_append, Prod.map_snd, id_eq, Prod.map_fst, ← List.map_take,
    List.count_eq_countP, List.countP_map, Table.earlier]
  refine List.countP_congr fun other _ => ?_
  rw [Function.comp_apply, beq_iff_eq, decide_eq_true_eq, agreeOn_iff]

/-- Groups and numbers go along with the rows. -/
theorem zip_occurrences_rows (table : Table) (names : List String) :
    (table.rows.map (keyOf table names)).zip
        (occurrences [] (table.rows.map (keyOf table names))) =
      table.rows.zipIdx.map fun placed =>
        (keyOf table names placed.1, table.earlier names placed) := by
  rw [occurrences_rows, ← List.zip_map']
  congr 1
  conv_lhs => rw [← List.zipIdx_map_fst 0 table.rows, List.map_map]
  rfl

/-- The rows that agree with a row are numbered from zero on. -/
theorem numbers_of_group (table : Table) (names : List String) (row : Row) :
    (table.rows.zipIdx.filter fun placed => table.AgreeOn names row placed.1).map
        (table.earlier names) =
      List.range (table.rows.countP fun other => table.AgreeOn names row other) := by
  have counted := numbers_of_key [] (table.rows.map (keyOf table names)) (keyOf table names row)
  rw [zip_occurrences_rows, List.filter_map, List.map_map, List.count_eq_countP,
    List.countP_map] at counted
  have members : (table.rows.countP fun other => table.AgreeOn names row other) =
      table.rows.countP ((· == keyOf table names row) ∘ keyOf table names) :=
    List.countP_congr fun other _ => by simp [agreeOn_iff]
  rw [members, List.range_eq_range']
  simp only [agreeOn_iff]
  exact counted

/-- Rows at different places that agree have different numbers. -/
theorem pairwise_numbered (table : Table) (names : List String) :
    table.rows.zipIdx.Pairwise fun placed later =>
      table.AgreeOn names placed.1 later.1 →
        table.earlier names placed ≠ table.earlier names later := by
  have distinct := nodup_numbered [] (table.rows.map (keyOf table names))
  rw [zip_occurrences_rows, List.Nodup, List.pairwise_map] at distinct
  refine distinct.imp fun differ agree same => differ ?_
  rw [Prod.mk.injEq]
  exact ⟨(agreeOn_iff.mp agree).symm, same⟩

end Groups

/-- A number is known from its decimal digits. -/
theorem eq_of_toString_eq {number other : Nat} (same : toString number = toString other) :
    number = other := by
  rw [Nat.toString_eq_ofList_toDigits, Nat.toString_eq_ofList_toDigits] at same
  rw [← @Nat.ofDigitChars_ten_toDigits number, String.ofList_injective same,
    Nat.ofDigitChars_ten_toDigits]

section Whole

variable {table : Table} {names : List String} {placed other : Row × Nat}

/-- The row at a place with its number at its end. -/
def numbered (table : Table) (names : List String) (placed : Row × Nat) : Row :=
  ⟨placed.1.path, placed.1.values ++ [toString (table.earlier names placed)]⟩

/-- The rows in their order, each with its number in a new column. -/
def withNumbers (table : Table) (names : List String) : Table :=
  ⟨table.columns ++ [numberColumn], table.rows.zipIdx.map (numbered table names)⟩

theorem extendRows_numbers (table : Table) (names : List String) :
    Table.extendRows table.rows ((table.rows.zipIdx.map (table.earlier names)).map toString) =
      table.rows.zipIdx.map (numbered table names) := by
  conv_lhs => rw [← List.zipIdx_map_fst 0 table.rows]
  rw [Table.extendRows, List.map_map, List.zipWith_map, List.zipIdx_map_fst, List.zipWith_self]
  rfl

/-- When the keys are columns and the new column is not, the members are numbered. -/
theorem numberMembers_eq_ok {keys : Option (List String)}
    (known : ∀ key ∈ keys.getD ensembleKeys, key ∈ table.columns)
    (free : numberColumn ∉ table.columns) :
    numberMembers table keys = .ok (withNumbers table (keys.getD ensembleKeys)) := by
  have cells : (table.rows.map fun row => row.cells
      ((keys.getD ensembleKeys).map fun name => table.columns.idxOf name)) =
      table.rows.map (keyOf table (keys.getD ensembleKeys)) :=
    List.map_congr_left fun row _ => List.map_map
  have height : ((table.rows.zipIdx.map (table.earlier (keys.getD ensembleKeys))).map
      toString).length = table.rows.length := by
    simp
  rw [numberMembers, Table.columnIndices_eq_ok.mpr ⟨known, rfl⟩]
  change table.withColumn numberColumn ((occurrences [] (table.rows.map fun row => row.cells
    ((keys.getD ensembleKeys).map fun name => table.columns.idxOf name))).map toString) = _
  rw [cells, occurrences_rows, Table.withColumn_eq_ok.mpr ⟨free, height, rfl⟩, extendRows_numbers]
  rfl

variable (aligned : table.Aligned)

include aligned

theorem length_values_of_placed (member : placed ∈ table.rows.zipIdx) :
    placed.1.values.length = table.columns.length :=
  aligned _ (List.mem_zipIdx_iff_getElem?.mp member |> List.mem_of_getElem?)

/-- The other columns are as before. -/
theorem value_numbered (member : placed ∈ table.rows.zipIdx) {name : String}
    (column : name ∈ table.columns) :
    (withNumbers table names).value (numbered table names placed) name =
      table.value placed.1 name :=
  value_old (length_values_of_placed aligned member) column

theorem number_numbered (free : numberColumn ∉ table.columns)
    (member : placed ∈ table.rows.zipIdx) :
    (withNumbers table names).value (numbered table names placed) numberColumn =
      toString (table.earlier names placed) := by
  have only : [numberColumn].map ((withNumbers table names).value (numbered table names placed)) =
      [toString (table.earlier names placed)] :=
    map_value_new (length_values_of_placed aligned member) rfl (List.nodup_singleton _)
      (by simpa using free)
  exact (List.cons.inj only).1

theorem agreeOn_numbered (known : ∀ name ∈ names, name ∈ table.columns)
    (member : placed ∈ table.rows.zipIdx) (again : other ∈ table.rows.zipIdx) :
    (withNumbers table names).AgreeOn names (numbered table names placed)
      (numbered table names other) ↔ table.AgreeOn names placed.1 other.1 := by
  refine forall₂_congr fun name named => ?_
  rw [value_numbered aligned member (known name named),
    value_numbered aligned again (known name named)]

/-- The rows that agree with a row go along with the rows that agreed with it before. -/
theorem filter_numbered (known : ∀ name ∈ names, name ∈ table.columns)
    (member : placed ∈ table.rows.zipIdx) :
    ((withNumbers table names).rows.filter fun row =>
        (withNumbers table names).AgreeOn names (numbered table names placed) row) =
      (table.rows.zipIdx.filter fun other => table.AgreeOn names placed.1 other.1).map
        (numbered table names) := by
  rw [withNumbers, List.filter_map]
  refine congrArg _ (List.filter_congr fun other again => ?_)
  rw [Function.comp_apply, decide_eq_decide]
  exact agreeOn_numbered aligned known member again

/-- The numbers of a group count up from zero. -/
theorem numbers_of_agreeing (known : ∀ name ∈ names, name ∈ table.columns)
    (free : numberColumn ∉ table.columns) (member : placed ∈ table.rows.zipIdx) :
    (((withNumbers table names).rows.filter fun row => (withNumbers table names).AgreeOn names
        (numbered table names placed) row).map fun row =>
          (withNumbers table names).value row numberColumn) =
      (List.range ((withNumbers table names).rows.filter fun row =>
        (withNumbers table names).AgreeOn names (numbered table names placed) row).length).map
          toString := by
  have numbers := numbers_of_group table names placed.1
  have size := congrArg List.length numbers
  rw [List.length_map, List.length_range] at size
  rw [filter_numbered aligned known member, List.length_map, size, ← numbers, List.map_map,
    List.map_map]
  exact List.map_congr_left fun other agreeing =>
    number_numbered aligned free (List.mem_of_mem_filter agreeing)

/-- No two rows agree on the keys and on the number. -/
theorem pairwise_withNumbers (known : ∀ name ∈ names, name ∈ table.columns)
    (free : numberColumn ∉ table.columns) :
    (withNumbers table names).rows.Pairwise fun row other =>
      ¬ (withNumbers table names).AgreeOn (names ++ [numberColumn]) row other := by
  refine List.pairwise_map.mpr ((pairwise_numbered table names).imp_of_mem ?_)
  intro placed other member again differ agree
  have same := agree numberColumn (by simp)
  rw [number_numbered aligned free member, number_numbered aligned free again] at same
  refine differ ((agreeOn_numbered aligned known member again).mp fun name named => ?_)
    (eq_of_toString_eq same)
  exact agree name (List.mem_append_left _ named)

end Whole

/-- Each row gets the number of earlier rows that agree with it on every key, and nothing else
changes. -/
theorem numberMembers_exact {table : Table} (aligned : table.Aligned)
    {keys : Option (List String)} (known : ∀ key ∈ keys.getD ensembleKeys, key ∈ table.columns)
    (free : numberColumn ∉ table.columns) :
    ∃ next, numberMembers table keys = .ok next ∧
      next.columns = table.columns ++ [numberColumn] ∧
      (next.rows = table.rows.zipIdx.map fun placed => ⟨placed.1.path,
        placed.1.values ++ [toString (table.earlier (keys.getD ensembleKeys) placed)]⟩) ∧
      (∀ name ∈ table.columns, next.column name = table.column name) ∧
      (next.column numberColumn = .ok (table.rows.zipIdx.map fun placed =>
        toString (table.earlier (keys.getD ensembleKeys) placed))) ∧
      (∀ row ∈ next.rows,
        let group := next.rows.filter fun other => next.AgreeOn (keys.getD ensembleKeys) row other
        (group.map fun other => next.value other numberColumn) =
          (List.range group.length).map toString) ∧
      next.rows.Pairwise fun row other =>
        ¬ next.AgreeOn (keys.getD ensembleKeys ++ [numberColumn]) row other := by
  refine ⟨_, numberMembers_eq_ok known free, rfl, rfl, fun name column => ?_, ?_, ?_, ?_⟩
  · rw [Table.column_of_mem column, Table.column_of_mem (List.mem_append_left _ column)]
    conv_rhs => rw [← List.zipIdx_map_fst 0 table.rows]
    rw [withNumbers, List.map_map, List.map_map]
    exact congrArg _ (List.map_congr_left fun placed member => value_numbered aligned member column)
  · rw [Table.column_of_mem (by simp [withNumbers])]
    rw [withNumbers, List.map_map]
    exact congrArg _ (List.map_congr_left fun placed member => number_numbered aligned free member)
  · intro row member
    obtain ⟨placed, inside, rfl⟩ := List.mem_map.mp member
    exact numbers_of_agreeing aligned known free inside
  · exact pairwise_withNumbers aligned known free

/-- Two groups whose rows alternate, and a key that is given twice. -/
theorem numberMembers_exact_alternating :
    ∃ next, numberMembers ⟨["exp", "model", "ens"],
        [⟨"a", ["h", "x", "r1"]⟩, ⟨"b", ["h", "y", "r1"]⟩, ⟨"c", ["s", "x", "r2"]⟩,
          ⟨"d", ["h", "y", "r2"]⟩, ⟨"e", ["h", "x", "r3"]⟩]⟩ (some ["model", "model"]) = .ok next ∧
      next.column numberColumn = .ok ["0", "0", "1", "1", "2"] := by
  obtain ⟨next, numbered, _, _, _, numbers, _⟩ := @numberMembers_exact ⟨["exp", "model", "ens"],
    [⟨"a", ["h", "x", "r1"]⟩, ⟨"b", ["h", "y", "r1"]⟩, ⟨"c", ["s", "x", "r2"]⟩,
      ⟨"d", ["h", "y", "r2"]⟩, ⟨"e", ["h", "x", "r3"]⟩]⟩ (by decide) (some ["model", "model"])
    (by decide) (by decide)
  exact ⟨next, numbered, numbers.trans (by decide)⟩

end Ensemble
end PathCatalog
