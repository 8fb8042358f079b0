import PathCatalog.Proofs.Table.Projection
import PathCatalog.Proofs.Table.Search
import PathCatalog.Table.Preference

namespace PathCatalog.Priority

variable {priority : Priority} {table : Table} {index : Nat} {indices : List Nat}

theorem position_eq_ok (column : priority.column ∈ table.columns) :
    priority.position table = .ok (priority.ranking table) := by
  rw [position, idxOf?_of_mem column]
  rfl

theorem grouping_eq_ok (suited : ¬ priority.Unsuited table) :
    priority.grouping table (priority.ranking table) = .ok (priority.shared table) := by
  unfold Unsuited at suited
  push Not at suited
  obtain ⟨_, named⟩ := suited
  unfold grouping shared
  cases groupBy : priority.groupBy with
  | none => rfl
  | some names =>
      obtain ⟨apart, known⟩ := named names groupBy
      dsimp only
      rw [if_neg (by simpa using apart)]
      exact Table.columnIndices_eq_ok.mpr ⟨known, rfl⟩

/-- Named columns that were looked up are columns other than the priority column. -/
theorem suited_of_grouping {names : List String} (named : priority.groupBy = some names)
    (grouped : priority.grouping table index = .ok indices) :
    priority.column ∉ names ∧ ∀ name ∈ names, name ∈ table.columns := by
  rw [grouping, named] at grouped
  dsimp only at grouped
  split at grouped
  next => cases grouped
  next apart => exact ⟨by simpa using apart, (Table.columnIndices_eq_ok.mp grouped).1⟩

/-- Settings that a table cannot follow are refused. -/
theorem refused_of_unsuited (unsuited : priority.Unsuited table) :
    ∃ cause, (priority.apply table).outcome = .error (.misfit cause) := by
  by_cases column : priority.column ∈ table.columns
  · obtain ⟨names, named, unfit⟩ := unsuited.resolve_left (not_not_intro column)
    have placed := position_eq_ok column
    cases grouped : priority.grouping table (priority.ranking table) with
    | error fault =>
        obtain ⟨cause, rfl⟩ := of_grouping_eq_error grouped
        refine ⟨cause, Logged.outcome_bind_eq_error.mpr (.inr ⟨_, placed, ?_⟩)⟩
        exact Logged.outcome_bind_eq_error.mpr (.inl grouped)
    | ok indices =>
        obtain ⟨apart, known⟩ := suited_of_grouping named grouped
        rcases unfit with among | ⟨name, member, absent⟩
        · exact absurd among apart
        · exact absurd (known name member) absent
  · have absent : table.columns.idxOf? priority.column = none :=
      List.idxOf?_eq_none_iff.mpr column
    have refused : priority.position table =
        .error (.misfit (.priorityUnavailable priority.column)) := by
      rw [position, absent]
    exact ⟨_, Logged.outcome_bind_eq_error.mpr (.inl refused)⟩

theorem agree_iff {row other : Row} :
    Agree indices row other ↔ other.cells indices = row.cells indices := by
  rw [Row.cells, Row.cells, List.map_inj_left]
  exact forall₂_congr fun _ _ => eq_comm

/-- Only which keys were seen matters, not their order. -/
theorem keysAfter_congr {seen others : List (List String)} (same : ∀ key, key ∈ seen ↔ key ∈ others)
    (rows : List Row) : keysAfter seen indices rows = keysAfter others indices rows := by
  induction rows generalizing seen others with
  | nil => rfl
  | cons row rest ih =>
      have known : seen.contains (row.cells indices) = others.contains (row.cells indices) := by
        rw [Bool.eq_iff_iff, List.contains_iff_mem, List.contains_iff_mem, same]
      have later : ∀ key, key ∈ row.cells indices :: seen ↔ key ∈ row.cells indices :: others := by
        intro key
        rw [List.mem_cons, List.mem_cons, same]
      rw [keysAfter, keysAfter, known, ih same, ih later]

/-- A key that was seen is passed over, as if its rows were not there. -/
theorem keysAfter_cons (key : List String) (seen : List (List String)) (rows : List Row) :
    keysAfter (key :: seen) indices rows =
      keysAfter seen indices (rows.filter fun row => row.cells indices != key) := by
  induction rows generalizing seen with
  | nil => rfl
  | cons row rest ih =>
      rw [keysAfter, List.filter_cons]
      by_cases same : row.cells indices = key
      · simp [same, ih]
      · have differs : (row.cells indices != key) = true := by simpa using same
        have swapped : ∀ other, other ∈ row.cells indices :: key :: seen ↔
            other ∈ key :: row.cells indices :: seen := by
          intro other
          simp only [List.mem_cons]
          exact or_left_comm
        rw [if_pos differs, keysAfter, keysAfter_congr swapped, ih, ih]
        by_cases known : row.cells indices ∈ seen <;> simp [same, known]

/-- The first row's key comes first, then the other keys. -/
theorem keys_cons (row : Row) (rest : List Row) :
    keys indices (row :: rest) = row.cells indices ::
      keys indices (rest.filter fun other => other.cells indices != row.cells indices) := by
  rw [keys, keysAfter, keys, ← keysAfter_cons]
  rfl

/-- The first row's group comes first, then the groups of the rows with other keys. -/
theorem groups_cons (row : Row) (rest : List Row) :
    groups indices (row :: rest) =
      (row :: rest.filter fun other => Agree indices row other) ::
        groups indices (rest.filter fun other => ¬ Agree indices row other) := by
  have others : (rest.filter fun other => ¬ Agree indices row other) =
      rest.filter fun other => other.cells indices != row.cells indices := by
    refine List.filter_congr fun other _ => ?_
    rw [Bool.eq_iff_iff, decide_eq_true_eq, bne_iff_ne, agree_iff]
  have first : keys indices (row :: rest) = row.cells indices ::
      keys indices (rest.filter fun other => ¬ Agree indices row other) := by
    rw [others, keys_cons]
  rw [groups, first, List.map_cons, groups]
  congr 1
  · rw [List.filter_cons, if_pos (by simp)]
    refine congrArg (row :: ·) (List.filter_congr fun other _ => ?_)
    rw [Bool.eq_iff_iff, decide_eq_true_eq, beq_iff_eq, agree_iff]
  · refine List.map_congr_left fun key member => ?_
    obtain ⟨_, leader, filtered, led⟩ := mem_keysAfter.mp member
    have differs : row.cells indices ≠ key := by
      have apart := (List.mem_filter.mp filtered).2
      rw [decide_eq_true_eq, agree_iff, led] at apart
      exact Ne.symm apart
    rw [others, List.filter_filter, List.filter_cons, if_neg (by simpa using differs)]
    refine List.filter_congr fun other _ => ?_
    rw [Bool.eq_iff_iff, Bool.and_eq_true, beq_iff_eq, bne_iff_ne]
    exact ⟨fun same => ⟨same, same ▸ Ne.symm differs⟩, And.left⟩

/-- The groups of some rows are as they should be. -/
theorem grouped_groups (indices : List Nat) (rows : List Row) :
    Grouped indices rows (groups indices rows) := by
  cases rows with
  | nil => exact .none
  | cons row rest =>
      rw [groups_cons]
      exact .first (grouped_groups indices _)
termination_by rows.length
decreasing_by exact Nat.lt_succ_of_le (List.length_filter_le _ _)

theorem Grouped.ne_nil {rows : List Row} {parts : List (List Row)} (grouped : Grouped indices rows parts)
    {group : List Row} (member : group ∈ parts) : group ≠ [] := by
  induction grouped with
  | none => cases member
  | first _ ih =>
      rcases List.mem_cons.mp member with rfl | later
      · exact List.cons_ne_nil _ _
      · exact ih later

section Selected

variable {group : List Row} {order : List String} {value : String}

theorem selected?_cons (index : Nat) (group : List Row) (value : String) (rest : List String) :
    selected? index group (value :: rest) =
      if carriers index group value = [] then selected? index group rest
      else some (value, carriers index group value) := by
  rw [selected?, carriers]
  cases group.filter fun row => row.cell index == value with
  | nil => rfl
  | cons hit hits => rfl

/-- Nothing is found when no row carries a preferred value. -/
theorem selected?_eq_none :
    selected? index group order = none ↔ ∀ value ∈ order, carriers index group value = [] := by
  induction order with
  | nil => simp [selected?]
  | cons value rest ih =>
      rw [List.forall_mem_cons, selected?_cons]
      by_cases absent : carriers index group value = []
      · simp [absent, ih]
      · simp [absent]

/-- What is found is the selected value, with all rows that carry it. -/
theorem selected?_of_selects (selects : priority.Selects index group value) :
    selected? index group priority.order = some (value, carriers index group value) := by
  obtain ⟨before, after, order, carried, passed⟩ := selects
  rw [order]
  clear order
  induction before with
  | nil => rw [List.nil_append, selected?_cons, if_neg carried]
  | cons earlier rest ih =>
      obtain ⟨here, later⟩ := List.forall_mem_cons.mp passed
      rw [List.cons_append, selected?_cons, if_pos here, ih later]

/-- A group of several rows has a selected value or lacks one. -/
theorem selects_or_lacks (several : 2 ≤ group.length) :
    (∃ value, priority.Selects index group value) ∨ priority.Lacks index group := by
  by_cases carried : ∃ value ∈ priority.order, carriers index group value ≠ []
  · left
    obtain ⟨value, found⟩ := Option.isSome_iff_exists.mp <| List.find?_isSome
      (p := fun value => decide (carriers index group value ≠ [])).mpr (by simpa using carried)
    obtain ⟨holds, before, after, order, passed⟩ := List.find?_eq_some_iff_append.mp found
    exact ⟨value, before, after, order, by simpa using holds, by simpa using passed⟩
  · push Not at carried
    exact .inr ⟨several, carried⟩

theorem not_lacks_of_selects (selects : priority.Selects index group value) :
    ¬ priority.Lacks index group := by
  intro lacks
  obtain ⟨before, after, order, carried, _⟩ := selects
  exact carried (lacks.2 value (by simp [order]))

end Selected

section Group

variable {group kept : List Row} {fault : Failure}

/-- Of a group of several rows the selected value decides. -/
theorem keep_of_several (several : 2 ≤ group.length) :
    priority.keep table index group =
      match selected? index group priority.order with
      | some (_, [hit]) => .done [hit]
      | some (value, _) =>
          .fail (.ambiguousPriority priority.column value (describeGroup table group))
      | none => missing priority.onMissing (describeGroup table group) := by
  match group, several with
  | _ :: _ :: _, _ => rfl

/-- A tolerant policy drops a group, and one of the policies says so. -/
theorem missing_of_tolerant {policy : OnMissing} (tolerant : policy ≠ .raise) :
    (missing policy (describeGroup table group)).outcome = .ok [] ∧
      (missing policy (describeGroup table group)).warnings =
        if policy = .warn then [notice table group] else [] := by
  cases policy with
  | raise => exact absurd rfl tolerant
  | warn => exact ⟨rfl, rfl⟩
  | ignore => exact ⟨rfl, rfl⟩

/-- What is to be kept of a group is kept, with a notice of a group that is dropped. -/
theorem keep_of_keeps (table : Table) (keeps : priority.Keeps index group kept) :
    (priority.keep table index group).outcome = .ok kept ∧
      (priority.keep table index group).warnings =
        if priority.onMissing = .warn ∧ priority.Lacks index group then [notice table group] else [] := by
  cases keeps with
  | alone row =>
      have many : ¬ priority.Lacks index [row] := fun lacks => by simpa using lacks.1
      rw [if_neg fun holds => many holds.2]
      exact ⟨rfl, rfl⟩
  | selected several selects only =>
      rw [keep_of_several several, selected?_of_selects selects, only,
        if_neg fun holds => not_lacks_of_selects selects holds.2]
      exact ⟨rfl, rfl⟩
  | dropped lacks tolerant =>
      rw [keep_of_several lacks.1, selected?_eq_none.mpr lacks.2]
      simp only [lacks, and_true]
      exact missing_of_tolerant tolerant

/-- A group that has to fail does. -/
theorem keep_of_fails (fails : priority.Fails table index group fault) :
    (priority.keep table index group).outcome = .error fault := by
  cases fails with
  | @ambiguous value several selects repeated =>
      rw [keep_of_several several, selected?_of_selects selects]
      match carriers index group value, repeated with
      | _ :: _ :: _, _ => rfl
  | missing lacks strict =>
      rw [keep_of_several lacks.1, selected?_eq_none.mpr lacks.2, strict]
      rfl

/-- Every group is settled one way or the other. -/
theorem keeps_or_fails (table : Table) (filled : group ≠ []) :
    (∃ kept, priority.Keeps index group kept) ∨ ∃ fault, priority.Fails table index group fault := by
  match group, filled with
  | [row], _ => exact .inl ⟨_, .alone row⟩
  | first :: second :: rest, _ =>
      have several : 2 ≤ (first :: second :: rest).length := by simp
      rcases selects_or_lacks several with ⟨value, selects⟩ | lacks
      · cases hits : carriers index (first :: second :: rest) value with
        | nil =>
            obtain ⟨_, _, _, carried, _⟩ := selects
            exact absurd hits carried
        | cons hit others =>
            cases others with
            | nil => exact .inl ⟨_, .selected several selects hits⟩
            | cons other more => exact .inr ⟨_, .ambiguous several selects (by simp [hits])⟩
      · by_cases strict : priority.onMissing = .raise
        · exact .inr ⟨_, .missing lacks strict⟩
        · exact .inl ⟨_, .dropped lacks strict⟩

end Group

/-- With settings that can be followed, the filter ends as the work on its groups does. -/
theorem apply_of_suited (suited : ¬ priority.Unsuited table) :
    let work := Logged.each (priority.keep table (priority.ranking table))
      (groups (priority.shared table) table.rows)
    (priority.apply table).outcome = work.outcome.map (fun kept => ⟨table.columns, kept.flatten⟩) ∧
      (priority.apply table).warnings = work.warnings := by
  intro work
  have column : priority.column ∈ table.columns := by
    by_contra missing
    exact suited (.inl missing)
  rw [apply, position_eq_ok column, Logged.ofExcept_ok_bind, grouping_eq_ok suited,
    Logged.ofExcept_ok_bind]
  change (work >>= _).outcome = _ ∧ (work >>= _).warnings = _
  rw [Logged.outcome_bind, Logged.warnings_bind]
  cases reached : work.outcome with
  | error fault => exact ⟨rfl, List.append_nil _⟩
  | ok kept =>
      have counted := length_keys_of_nodup (nodup_kept (Logged.outcome_each_eq_ok.mp reached))
      constructor
      · change (if _ then _ else _ : Logged Failure Table).outcome = _
        rw [if_pos counted]
        rfl
      · dsimp only
        rw [if_pos counted]
        exact List.append_nil _

/-- A table refuses the settings that it cannot follow and no others. -/
theorem refused_iff_unsuited :
    (∃ cause, (priority.apply table).outcome = .error (.misfit cause)) ↔ priority.Unsuited table := by
  refine ⟨fun refused => ?_, refused_of_unsuited⟩
  obtain ⟨cause, refused⟩ := refused
  by_contra suited
  rw [(apply_of_suited suited).1] at refused
  cases work : (Logged.each (priority.keep table (priority.ranking table))
      (groups (priority.shared table) table.rows)).outcome with
  | ok kept => simp [work, Except.map] at refused
  | error fault =>
      obtain ⟨group, _, failed⟩ := Logged.of_each_eq_error work
      rw [work] at refused
      obtain rfl : fault = .misfit cause := Except.error.inj refused
      rcases of_keep_eq_error failed with ⟨_, same⟩ | same <;> cases same

/-- The first group that has to fail makes the filter fail. -/
theorem apply_of_first_failing (suited : ¬ priority.Unsuited table) {before after : List (List Row)}
    {group : List Row} {fault : Failure}
    (cut : groups (priority.shared table) table.rows = before ++ group :: after)
    (passed : ∀ earlier ∈ before, ∀ other,
      ¬ priority.Fails table (priority.ranking table) earlier other)
    (fails : priority.Fails table (priority.ranking table) group fault) :
    (priority.apply table).outcome = .error fault := by
  have failed : (Logged.each (priority.keep table (priority.ranking table))
      (groups (priority.shared table) table.rows)).outcome = .error fault := by
    refine Logged.outcome_each_eq_error.mpr
      ⟨before, group, after, cut, fun earlier member => ?_, keep_of_fails fails⟩
    have filled : earlier ≠ [] := (grouped_groups _ _).ne_nil (by rw [cut]; simp [member])
    rcases keeps_or_fails table filled with ⟨kept, keeps⟩ | ⟨other, failing⟩
    · exact ⟨kept, (keep_of_keeps table keeps).1⟩
    · exact absurd failing (passed earlier member other)
  rw [(apply_of_suited suited).1, failed]
  rfl

/-- When no group has to fail, the filter keeps of every group what is to be kept. -/
theorem apply_of_none_failing (suited : ¬ priority.Unsuited table)
    (passed : ∀ group ∈ groups (priority.shared table) table.rows, ∀ fault,
      ¬ priority.Fails table (priority.ranking table) group fault) :
    ∃ kept, List.Forall₂ (priority.Keeps (priority.ranking table))
        (groups (priority.shared table) table.rows) kept ∧
      (priority.apply table).outcome = .ok ⟨table.columns, kept.flatten⟩ ∧
      (priority.apply table).warnings =
        if priority.onMissing = .warn then
          ((groups (priority.shared table) table.rows).filter fun group =>
            priority.Lacks (priority.ranking table) group).map (notice table)
        else [] := by
  have settled : ∀ group ∈ groups (priority.shared table) table.rows,
      ∃ kept, priority.Keeps (priority.ranking table) group kept := by
    intro group member
    have filled : group ≠ [] := (grouped_groups _ _).ne_nil member
    exact (keeps_or_fails table filled).resolve_right fun failing =>
      passed group member failing.choose failing.choose_spec
  obtain ⟨kept, keeps⟩ := exists_forall₂ settled
  have reached := Logged.outcome_each_eq_ok.mpr
    (keeps.imp fun _ _ one => (keep_of_keeps table one).1)
  refine ⟨kept, keeps, by rw [(apply_of_suited suited).1, reached]; rfl, ?_⟩
  rw [(apply_of_suited suited).2, Logged.warnings_each_filter reached fun group member =>
    (keep_of_keeps table (settled group member).choose_spec).2]
  by_cases warns : priority.onMissing = .warn <;> simp [warns]

/-- A filter that is not refused keeps the preferred row of every group in order, or fails for the
first group that has to. -/
theorem apply_keeps_preferred (priority : Priority) (table : Table) :
    ((∃ cause, (priority.apply table).outcome = .error (.misfit cause)) ↔
        priority.Unsuited table) ∧
      (¬ priority.Unsuited table →
        ∃ parts, Grouped (priority.shared table) table.rows parts ∧
          (∀ before group after fault, parts = before ++ group :: after →
            (∀ earlier ∈ before, ∀ other,
              ¬ priority.Fails table (priority.ranking table) earlier other) →
            priority.Fails table (priority.ranking table) group fault →
            (priority.apply table).outcome = .error fault) ∧
          ((∀ group ∈ parts, ∀ fault,
              ¬ priority.Fails table (priority.ranking table) group fault) →
            ∃ kept, List.Forall₂ (priority.Keeps (priority.ranking table)) parts kept ∧
              (priority.apply table).outcome = .ok ⟨table.columns, kept.flatten⟩ ∧
              (priority.apply table).warnings =
                if priority.onMissing = .warn then
                  (parts.filter fun group => priority.Lacks (priority.ranking table) group).map
                    (notice table)
                else [])) := by
  refine ⟨refused_iff_unsuited, fun suited => ⟨_, grouped_groups _ table.rows, ?_, ?_⟩⟩
  · intro before group after fault cut passed fails
    exact apply_of_first_failing suited cut passed fails
  · intro passed
    exact apply_of_none_failing suited passed

end PathCatalog.Priority
