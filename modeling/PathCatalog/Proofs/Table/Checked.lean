import Mathlib.Data.List.Forall2
import PathCatalog.Proofs.Matching.Captures
import PathCatalog.Proofs.Table.Descent
import PathCatalog.Proofs.Table.Preference
import PathCatalog.Table.Checked

namespace PathCatalog.Checked

section Agreement

variable {Value Result Next Last : Type}

/-- No look-up of the checked run is outside, and both runs end alike after the same events. -/
inductive Agrees (relates : Value → Result → Prop) :
    Logged Halt Value → Logged Failure Result → Prop where
  | value {value : Value} {result : Result} {events : List Event} (same : relates value result) :
      Agrees relates ⟨.ok value, events⟩ ⟨.ok result, events⟩
  | failure {cause : Failure} {events : List Event} :
      Agrees relates ⟨.error (.failed cause), events⟩ ⟨.error cause, events⟩

namespace Agrees

variable {relates : Value → Result → Prop} {later : Next → Last → Prop}

theorem done {value : Value} {result : Result} (same : relates value result) :
    Agrees relates (.done value) (.done result) :=
  .value same

theorem refl (run : Logged Failure Value) : Agrees (· = ·) (plain run) run := by
  obtain ⟨outcome, events⟩ := run
  cases outcome with
  | ok value => exact .value rfl
  | error cause => exact .failure

/-- Runs that agree on the value itself are one and the same. -/
theorem sound {checked : Logged Halt Value} {run : Logged Failure Value}
    (agrees : Agrees (· = ·) checked run) : Sound checked run := by
  cases agrees with
  | value same =>
      subst same
      exact ⟨nofun, rfl⟩
  | failure => exact ⟨nofun, rfl⟩

theorem bind {checked : Logged Halt Value} {run : Logged Failure Result}
    {next : Value → Logged Halt Next} {last : Result → Logged Failure Last}
    (first : Agrees relates checked run)
    (second : ∀ value result, relates value result → Agrees later (next value) (last result)) :
    Agrees later (checked >>= next) (run >>= last) := by
  cases first with
  | failure => exact .failure
  | @value value result events same =>
      have ends := second value result same
      change Agrees later ⟨_, events ++ (next value).events⟩ ⟨_, events ++ (last result).events⟩
      generalize next value = checked at ends ⊢
      generalize last result = run at ends ⊢
      cases ends with
      | value same => exact .value same
      | failure => exact .failure

/-- A value that is known beforehand is looked up without an event. -/
theorem done_bind {checked : Logged Halt Value} {result : Result}
    {next : Value → Logged Halt Next} {last : Logged Failure Last}
    (first : Agrees relates checked (.done result))
    (second : ∀ value, relates value result → Agrees later (next value) last) :
    Agrees later (checked >>= next) last := by
  cases first with
  | value same => exact second _ same

/-- A part without a look-up is the same in both runs; what it reaches may be put to use. -/
theorem plain_bind {run : Logged Failure Value} {next : Value → Logged Halt Next}
    {last : Value → Logged Failure Last}
    (second : ∀ value, run.outcome = .ok value → Agrees later (next value) (last value)) :
    Agrees later (plain run >>= next) (run >>= last) := by
  obtain ⟨outcome, events⟩ := run
  cases outcome with
  | error cause => exact .failure
  | ok value =>
      have known : Agrees (fun left right => left = value ∧ right = value)
          (plain ⟨.ok value, events⟩) ⟨.ok value, events⟩ := .value ⟨rfl, rfl⟩
      refine known.bind fun left right same => ?_
      obtain ⟨rfl, rfl⟩ := same
      exact second _ rfl

/-- A run that goes on to restate its value still agrees. -/
theorem restate {checked : Logged Halt Value} {run : Logged Failure Result} {change : Result → Last}
    {related : Value → Last → Prop} (first : Agrees relates checked run)
    (same : ∀ value result, relates value result → related value (change result)) :
    Agrees related checked (run >>= fun result => pure (change result)) := by
  cases first with
  | failure => exact .failure
  | @value value result events holds =>
      change Agrees related _ ⟨_, events ++ []⟩
      rw [List.append_nil]
      exact .value (same value result holds)

theorem each {action : Value → Logged Halt Next} {other : Result → Logged Failure Last}
    {items : List Value} {others : List Result} (paired : List.Forall₂ relates items others)
    (step : ∀ item result, relates item result → Agrees later (action item) (other result)) :
    Agrees (List.Forall₂ later) (Logged.each action items) (Logged.each other others) := by
  induction paired with
  | nil => exact .done .nil
  | cons here _ ih =>
      refine (step _ _ here).bind fun value result same => ?_
      exact ih.bind fun values results rest => .done (.cons same rest)

end Agrees

end Agreement

section LookUps

variable {Item Value : Type}

theorem item_eq_done {items : List Item} {index : Nat} {found : Item}
    (located : items[index]? = some found) : item items index = .done found := by
  rw [item, located]

theorem range_eq_done {items : List Item} {first afterLast : Nat} (ordered : first ≤ afterLast)
    (inside : afterLast ≤ items.length) :
    range items first afterLast = .done ((items.drop first).take (afterLast - first)) :=
  if_pos ⟨ordered, inside⟩

theorem clamped_eq_done {lower upper : Nat} (ordered : lower ≤ upper) (position : Nat) :
    clamped lower upper position = .done (max lower (min position upper)) :=
  if_pos ordered

/-- A value is there in every column of a row that has as many values as there are columns. -/
theorem cell_eq_done {row : Row} {index : Nat} (inside : index < row.values.length) :
    cell row index = .done (row.cell index) := by
  have located : row.values[index]? = some (row.cell index) := by
    rw [Row.cell, List.getD_eq_getElem?_getD, List.getElem?_eq_getElem inside, Option.getD_some]
  exact item_eq_done located

theorem cells_eq_done {row : Row} {indices : List Nat}
    (inside : ∀ index ∈ indices, index < row.values.length) :
    cells row indices = .done (row.cells indices) :=
  Logged.each_eq_done fun index member => cell_eq_done (inside index member)

theorem pick_eq_done {test : Item → Logged Halt Bool} {passes : Item → Bool} {items : List Item}
    (tested : ∀ item ∈ items, test item = .done (passes item)) :
    pick test items = .done (items.filter passes) := by
  induction items with
  | nil => rfl
  | cons item rest ih =>
      obtain ⟨here, later⟩ := List.forall_mem_cons.mp tested
      rw [pick, here, Logged.done_bind, ih later, Logged.done_bind, List.filter_cons]
      rfl

end LookUps

section Positions

variable {table : Table} {indices : List Nat}

theorem lt_of_columnIndex {name : String} {index : Nat}
    (looked : table.columnIndex name = .ok index) : index < table.columns.length := by
  obtain ⟨column, rfl⟩ := Table.columnIndex_eq_ok.mp looked
  exact List.idxOf_lt_length_of_mem column

theorem lt_of_columnIndices {names : List String} (looked : table.columnIndices names = .ok indices) :
    ∀ index ∈ indices, index < table.columns.length := by
  obtain ⟨columns, rfl⟩ := Table.columnIndices_eq_ok.mp looked
  intro index member
  obtain ⟨name, named, rfl⟩ := List.mem_map.mp member
  exact List.idxOf_lt_length_of_mem (columns name named)

theorem lt_of_conditions {pairs : List (String × Candidates)} {conditions : List (Nat × Candidates)}
    (looked : table.conditions pairs = .ok conditions) :
    ∀ condition ∈ conditions, condition.1 < table.columns.length := by
  induction pairs generalizing conditions with
  | nil =>
      cases looked
      simp
  | cons pair rest ih =>
      obtain ⟨index, here, looked⟩ := bind_eq_ok.mp looked
      obtain ⟨others, later, same⟩ := bind_eq_ok.mp looked
      cases same
      exact List.forall_mem_cons.mpr ⟨lt_of_columnIndex here, ih later⟩

theorem lt_of_position {priority : Priority} {index : Nat}
    (placed : priority.position table = .ok index) : index < table.columns.length := by
  unfold Priority.position at placed
  split at placed
  next found =>
    cases placed
    obtain ⟨inside, _⟩ := List.idxOf?_eq_some_iff.mp found
    exact inside
  next => cases placed

theorem lt_of_grouping {priority : Priority} {index : Nat}
    (grouped : priority.grouping table index = .ok indices) :
    ∀ index ∈ indices, index < table.columns.length := by
  unfold Priority.grouping at grouped
  split at grouped
  next names _ =>
    split at grouped
    · cases grouped
    · exact lt_of_columnIndices grouped
  next =>
    cases grouped
    intro index member
    exact List.mem_range.mp (List.mem_of_mem_filter member)

end Positions

section Reading

variable {table : Table}

theorem cells_of_aligned (aligned : table.Aligned) {indices : List Nat}
    (inside : ∀ index ∈ indices, index < table.columns.length) {row : Row} (member : row ∈ table.rows) :
    cells row indices = .done (row.cells indices) :=
  cells_eq_done fun index named => by rw [aligned row member]; exact inside index named

/-- The values of a column are looked up where the column stands. -/
theorem column_located (aligned : table.Aligned) (name : String) :
    Agrees (fun values index => values = table.rows.map fun row => row.cell index)
      (column table name) (.ofExcept (table.columnIndex name)) := by
  rw [column]
  cases looked : table.columnIndex name with
  | error cause => exact .failure
  | ok index =>
      change Agrees _ (Logged.each _ _) _
      rw [Logged.each_eq_done fun row member => cell_eq_done ?_]
      · exact .done rfl
      · rw [aligned row member]
        exact lt_of_columnIndex looked

theorem column_agrees (aligned : table.Aligned) (name : String) :
    Agrees (· = ·) (column table name) (.ofExcept (table.column name)) := by
  rw [Table.column, Logged.ofExcept_bind]
  exact (column_located aligned name).restate fun _ _ => id

theorem combine_agrees (aligned : table.Aligned) (names : Option (List String)) (between : String) :
    Agrees (· = ·) (combine table names between) (.ofExcept (table.combine names between)) := by
  have joined {indices : List Nat} (inside : ∀ index ∈ indices, index < table.columns.length) :
      Logged.each (fun row => do
        let values ← cells row indices
        return Text.joined between values) table.rows =
      .done (table.rows.map fun row => Text.joined between (row.cells indices)) :=
    Logged.each_eq_done fun row member => by
      rw [cells_of_aligned aligned inside member]
      rfl
  cases names with
  | some names =>
      change Agrees _ _ (.ofExcept (table.columnIndices names >>= _))
      rw [Logged.ofExcept_bind]
      refine Agrees.plain_bind fun indices looked => ?_
      rw [joined (lt_of_columnIndices looked)]
      exact .done rfl
  | none =>
      change Agrees _ (Logged.each _ _) _
      rw [joined fun index => List.mem_range.mp]
      exact .done rfl

theorem meets_eq_done {row : Row} {conditions : List (Nat × Candidates)}
    (inside : ∀ condition ∈ conditions, condition.1 < row.values.length) :
    meets row conditions =
      .done (conditions.all fun condition => condition.2.accepts (row.cell condition.1)) := by
  induction conditions with
  | nil => rfl
  | cons condition rest ih =>
      obtain ⟨here, later⟩ := List.forall_mem_cons.mp inside
      rw [meets, cell_eq_done here, Logged.done_bind, ih later, List.all_cons]
      cases condition.2.accepts (row.cell condition.1) <;> rfl

theorem search_agrees (aligned : table.Aligned) (query : Query) :
    Agrees (· = ·) (search table query) (.ofExcept (table.search query)) := by
  rw [search, Table.search]
  split
  · exact .done rfl
  · rw [Logged.ofExcept_bind]
    refine Agrees.plain_bind fun conditions looked => ?_
    have tested : ∀ row ∈ table.rows, meets row conditions =
        .done (conditions.all fun condition => condition.2.accepts (row.cell condition.1)) := by
      intro row member
      refine meets_eq_done fun condition inside => ?_
      rw [aligned row member]
      exact lt_of_conditions looked condition inside
    rw [pick_eq_done tested]
    exact .done rfl

/-- Cutting the bounds to the table first makes no difference to the rows. -/
theorem slice_agrees (table : Table) (start finish : Table.Bound) :
    Agrees (· = ·) (slice table start finish) (.done (table.slice start finish)) := by
  have cut : (table.rows.drop (min start.first table.rows.length)).take
      (max (min start.first table.rows.length)
        (min (finish.afterLast table.rows.length) table.rows.length) -
          min start.first table.rows.length) =
      (table.rows.drop start.first).take (finish.afterLast table.rows.length - start.first) := by
    rcases Nat.le_total start.first table.rows.length with inside | beyond
    · rw [Nat.min_eq_left inside, List.take_eq_take_iff, List.length_drop]
      omega
    · rw [Nat.min_eq_right beyond, List.drop_length, List.drop_eq_nil_of_le beyond, List.take_nil,
        List.take_nil]
  rw [slice, clamped_eq_done (Nat.min_le_right _ _), Logged.done_bind,
    range_eq_done (Nat.le_max_left _ _) (by omega), cut]
  exact .done rfl

end Reading

section Filters

variable {priority : Priority} {table : Table} {rows group : List Row} {members : List Nat}
  {index : Nat} {indices : List Nat}

/-- Positions with the rows that are found there. -/
def Located (rows : List Row) : List Nat → List Row → Prop :=
  List.Forall₂ fun position row => rows[position]? = some row

theorem Located.look_up (located : Located rows members group) :
    Logged.each (item rows) members = .done group := by
  induction located with
  | nil => rfl
  | cons here _ ih =>
      rw [Logged.each, item_eq_done here, Logged.done_bind, ih]
      rfl

theorem Located.subset (located : Located rows members group) : group ⊆ rows := by
  induction located with
  | nil => exact List.nil_subset _
  | cons here _ ih => exact List.cons_subset.mpr ⟨List.mem_of_getElem? here, ih⟩

/-- The positions of the rows that pass a test. -/
theorem located_filter (rows : List Row) (passes : Row → Bool) :
    Located rows ((rows.zipIdx.filter fun numbered => passes numbered.1).map Prod.snd)
      (rows.filter passes) := by
  have kept : rows.filter passes =
      (rows.zipIdx.filter fun numbered => passes numbered.1).map Prod.fst := by
    conv_lhs => rw [← List.zipIdx_map_fst 0 rows, List.filter_map]
    rfl
  rw [kept, Located, List.forall₂_map_left_iff, List.forall₂_map_right_iff, List.forall₂_same]
  exact fun numbered member => List.mem_zipIdx_iff_getElem?.mp (List.mem_of_mem_filter member)

/-- The keys in the order in which they first occur are the keys without repetitions. -/
theorem keys_eq_eraseDups (indices : List Nat) (rows : List Row) :
    Priority.keys indices rows = (rows.map fun row => row.cells indices).eraseDups := by
  match rows with
  | [] => rfl
  | row :: rest =>
      rw [Priority.keys_cons, List.map_cons, List.eraseDups_cons, List.filter_map]
      exact congrArg (row.cells indices :: ·) (keys_eq_eraseDups indices _)
termination_by rows.length
decreasing_by exact Nat.lt_succ_of_le (List.length_filter_le _ _)

theorem partition_agrees (inside : ∀ row ∈ rows, ∀ index ∈ indices, index < row.values.length) :
    Agrees (List.Forall₂ (Located rows)) (partition indices rows)
      (.done (Priority.groups indices rows)) := by
  rw [partition, Logged.each_eq_done fun row member => cells_eq_done (inside row member),
    Logged.done_bind, Priority.groups, keys_eq_eraseDups]
  refine .done ?_
  rw [List.forall₂_map_left_iff, List.forall₂_map_right_iff, List.forall₂_same]
  intro key _
  rw [List.zipIdx_map, List.filter_map, List.map_map]
  exact located_filter rows fun row => row.cells indices == key

theorem hits_agree (inside : ∀ row ∈ rows, index < row.values.length)
    (located : Located rows members group) (value : String) :
    Agrees (Located rows) (pick (carries rows index value) members)
      (.done (group.filter fun row => row.cell index == value)) := by
  induction located with
  | nil => exact .done .nil
  | @cons member row members group here _ ih =>
      have carried : carries rows index value member = .done (row.cell index == value) := by
        rw [carries, item_eq_done here, Logged.done_bind,
          cell_eq_done (inside row (List.mem_of_getElem? here))]
        rfl
      rw [pick, carried, Logged.done_bind, List.filter_cons]
      refine ih.done_bind fun hits same => ?_
      split
      · exact .done (.cons here same)
      · exact .done same

/-- The same preferred value is found, at the positions of the rows that carry it. -/
theorem selected?_agrees (inside : ∀ row ∈ rows, index < row.values.length)
    (located : Located rows members group) (order : List String) :
    Agrees (Option.Rel fun found selected => found.1 = selected.1 ∧ Located rows found.2 selected.2)
      (selected? rows index members order) (.done (Priority.selected? index group order)) := by
  induction order with
  | nil => exact .done .none
  | cons value rest ih =>
      rw [selected?, Priority.selected?]
      refine (hits_agree inside located value).done_bind fun hits same => ?_
      generalize group.filter (fun row => row.cell index == value) = found at same ⊢
      cases same with
      | nil => exact ih
      | cons here later => exact .done (.some ⟨rfl, .cons here later⟩)

theorem describeGroup_eq_done (located : Located table.rows members group) :
    describeGroup table members = .done (Priority.describeGroup table group) := by
  rw [describeGroup, located.look_up]
  rfl

/-- A group that is dropped leaves no position, as it leaves no row. -/
theorem missing_agrees (rows : List Row) (policy : OnMissing) (described : String) :
    Agrees (Located rows) (plain (Priority.missing policy described) >>= fun _ => .done [])
      (Priority.missing policy described) := by
  cases policy with
  | raise => exact .failure
  | warn => exact .value .nil
  | ignore => exact .value .nil

theorem choose_agrees (inside : ∀ row ∈ table.rows, index < row.values.length)
    (located : Located table.rows members group) :
    Agrees (Located table.rows) (choose priority table index members)
      (match Priority.selected? index group priority.order with
      | some (_, [hit]) => .done [hit]
      | some (value, _) =>
          .fail (.ambiguousPriority priority.column value (Priority.describeGroup table group))
      | none => Priority.missing priority.onMissing (Priority.describeGroup table group)) := by
  refine (selected?_agrees inside located priority.order).done_bind fun found same => ?_
  rw [describeGroup_eq_done located]
  generalize Priority.selected? index group priority.order = selected at same ⊢
  cases same with
  | none => exact missing_agrees _ _ _
  | @some found selected same =>
      obtain ⟨value, hits⟩ := found
      obtain ⟨preferred, carriers⟩ := selected
      obtain ⟨rfl, same⟩ := same
      cases same with
      | nil => exact .failure
      | cons here later =>
          cases later with
          | nil => exact .done (.cons here .nil)
          | cons _ _ => exact .failure

theorem keep_agrees (inside : ∀ row ∈ table.rows, index < row.values.length)
    (located : Located table.rows members group) :
    Agrees (Located table.rows) (keep priority table index members)
      (priority.keep table index group) := by
  match members, group, located with
  | [], [], .nil => exact choose_agrees inside .nil
  | [_], [_], located => exact .done located
  | _ :: _ :: _, _ :: _ :: _, located => exact choose_agrees inside located

theorem apply_agrees (aligned : table.Aligned) (priority : Priority) :
    Agrees (· = ·) (apply priority table) (priority.apply table) := by
  refine Agrees.plain_bind fun index placed => Agrees.plain_bind fun indices grouped => ?_
  have ranked : ∀ row ∈ table.rows, index < row.values.length := by
    intro row member
    rw [aligned row member]
    exact lt_of_position placed
  have keyed : ∀ row ∈ table.rows, ∀ index ∈ indices, index < row.values.length := by
    intro row member
    rw [aligned row member]
    exact lt_of_grouping grouped
  refine (partition_agrees keyed).done_bind fun parts located => ?_
  refine (Agrees.each located fun _ _ => keep_agrees ranked).bind fun kept rows same => ?_
  have left : Located table.rows kept.flatten rows.flatten := List.rel_flatten same
  rw [left.look_up, Logged.done_bind]
  have again := partition_agrees fun row member => keyed row (left.subset member)
  refine again.done_bind fun regrouped same => ?_
  have counted : regrouped.length = (Priority.keys indices rows.flatten).length := by
    rw [same.length_eq, Priority.groups, List.length_map]
  rw [counted]
  dsimp only
  split
  · exact .done rfl
  · exact .failure

end Filters

section Ensembles

variable {table : Table}

/-- Every field of a label that was read has its value. -/
theorem addColumns_agrees {parsed : List (List String)} {fields : List (String × Nat)}
    (inside : ∀ values ∈ parsed, ∀ field ∈ fields, field.2 < values.length) (table : Table) :
    Agrees (· = ·) (addColumns parsed fields table)
      (.ofExcept (Ensemble.addColumns parsed fields table)) := by
  induction fields generalizing table with
  | nil => exact .done rfl
  | cons field rest ih =>
      have found : Logged.each (fun values => item values field.2) parsed =
          .done (parsed.map fun values => values.getD field.2 "") := by
        refine Logged.each_eq_done fun values member => item_eq_done ?_
        have here : field.2 < values.length := inside values member field List.mem_cons_self
        rw [List.getD_eq_getElem?_getD, List.getElem?_eq_getElem here, Option.getD_some]
      rw [addColumns, found, Logged.done_bind, Ensemble.addColumns, Logged.ofExcept_bind]
      refine Agrees.plain_bind fun extended _ => ih (fun values member field later => ?_) extended
      exact inside values member field (List.mem_cons_of_mem _ later)

theorem parseLabels_agrees (aligned : table.Aligned) :
    Agrees (· = ·) (parseLabels table) (Ensemble.parseLabels table) := by
  refine (column_agrees aligned Ensemble.labelColumn).bind fun labels others same => ?_
  subst same
  cases labels with
  | nil => exact .done rfl
  | cons first rest =>
      refine Agrees.plain_bind fun template _ => Agrees.plain_bind fun parsed reached => ?_
      refine addColumns_agrees (fun values member field numbered => ?_) table
      obtain ⟨label, _, read⟩ :=
        (mem_of_forall₂_ok (Logged.outcome_each_eq_ok.mp reached) values).mp member
      have fits := Template.fits_of_reading? (Template.outcome_parseValues_eq_ok.mp read)
      rw [fits.complete]
      exact List.snd_lt_of_mem_zipIdx numbered

theorem columns_located (aligned : table.Aligned) (names : List String) :
    Agrees (fun columns indices =>
        columns = indices.map fun index => table.rows.map fun row => row.cell index)
      (Logged.each (column table) names) (.ofExcept (table.columnIndices names)) := by
  induction names with
  | nil => exact .done rfl
  | cons name rest ih =>
      rw [Logged.each, Table.columnIndices, Logged.ofExcept_bind]
      refine (column_located aligned name).bind fun values index here => ?_
      rw [Logged.ofExcept_bind]
      refine ih.bind fun columns indices later => ?_
      exact .done (by rw [here, later, List.map_cons])

/-- Whole columns read across are the keys of the rows. -/
theorem across_eq_done (rows : List Row) (indices : List Nat) :
    Logged.each (fun position => Logged.each (fun values => item values position)
        (indices.map fun index => rows.map fun row => row.cell index)) (List.range rows.length) =
      .done (rows.map fun row => row.cells indices) := by
  have positions : List.range rows.length = rows.zipIdx.map Prod.snd := by
    rw [List.zipIdx_map_snd, List.range_eq_range']
  have keys : (rows.map fun row => row.cells indices) =
      rows.zipIdx.map fun numbered => numbered.1.cells indices := by
    conv_lhs => rw [← List.zipIdx_map_fst 0 rows, List.map_map]
    rfl
  rw [positions, keys]
  refine Logged.each_map_eq_done fun numbered member => ?_
  refine Logged.each_map_eq_done fun index _ => item_eq_done ?_
  rw [List.getElem?_map, List.mem_zipIdx_iff_getElem?.mp member, Option.map_some]

theorem numberMembers_agrees (aligned : table.Aligned) (keys : Option (List String)) :
    Agrees (· = ·) (numberMembers table keys) (.ofExcept (Ensemble.numberMembers table keys)) := by
  rw [Ensemble.numberMembers, Logged.ofExcept_bind]
  refine (columns_located aligned (keys.getD Ensemble.ensembleKeys)).bind
    fun columns indices same => ?_
  subst same
  rw [across_eq_done, Logged.done_bind]
  exact .refl _

end Ensembles

end PathCatalog.Checked
