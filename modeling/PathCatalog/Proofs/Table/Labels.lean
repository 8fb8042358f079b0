import Mathlib.Data.List.GetD
import Mathlib.Data.List.Nodup
import PathCatalog.Proofs.Matching.Captures
import PathCatalog.Proofs.Table.Descent
import PathCatalog.Proofs.Table.Search
import PathCatalog.Table.Labels

namespace PathCatalog.Ensemble

/-- Every letter with a placeholder for its number. -/
def formSegments (letters : List String) : List Segment :=
  letters.flatMap fun letter => [.literal letter, .field letter (some ⟨"d", none, .digits⟩)]

theorem formSegments_cons (letter : String) (letters : List String) :
    formSegments (letter :: letters) =
      .literal letter :: .field letter (some ⟨"d", none, .digits⟩) :: formSegments letters := rfl

/-- A template reads the labels of a form when it is spelled by letters that differ. -/
structure Reads (template : Template) (letters : List String) : Prop where
  segments : template.segments = formSegments letters
  pattern : template.pattern = formOf letters
  distinct : letters.Nodup

theorem exists_reads_of_parse {letters : List String} (distinct : letters.Nodup)
    (parsed : Segment.parse (formOf letters) = .ok (formSegments letters))
    (narrow : Plan.largestWidth (Plan.demands (formSegments letters)) ≤ Plan.widthLimit) :
    ∃ template, Template.compile (formOf letters) = .ok template ∧ Reads template letters :=
  ⟨⟨_, _, parsed⟩, Template.compile_eq_ok.mpr ⟨rfl, narrow⟩, rfl, rfl, distinct⟩

/-- There is a template for the form that the first label decides on. -/
theorem exists_reads (first : String) :
    ∃ template, Template.compile (if first.toList.contains 'f' then fourPart else threePart) =
      .ok template ∧ Reads template (lettersOf first) := by
  have four : fourPart = formOf ["r", "i", "p", "f"] := by decide
  have three : threePart = formOf ["r", "i", "p"] := by decide
  by_cases forced : 'f' ∈ first.toList
  · rw [if_pos (by simpa using forced), lettersOf, if_pos forced, four]
    exact exists_reads_of_parse (by decide) (by decide +kernel) (by decide)
  · rw [if_neg (by simpa using forced), lettersOf, if_neg forced, three]
    exact exists_reads_of_parse (by decide) (by decide +kernel) (by decide)

section Form

variable {letters numbers seen known : List String} {letter label : String} {text : List Char}

theorem admits_iff_isNumber {value : String} :
    (⟨none, .digits⟩ : Shape).admits value.toList = true ↔ IsNumber value := by
  simp [Shape.admits, IsNumber, CharClass.contains]

theorem spells_nil : Spells [] label numbers ↔ label = "" ∧ numbers = [] := by
  constructor
  · intro spells
    exact ⟨spells.joined.symm, List.length_eq_zero_iff.mp spells.complete⟩
  · intro holds
    obtain ⟨rfl, rfl⟩ := holds
    exact ⟨rfl, List.forall_mem_nil _, rfl⟩

/-- The first number stands after the first letter, and the others spell the rest of the label. -/
theorem spells_cons :
    Spells (letter :: letters) label numbers ↔ ∃ number others rest, numbers = number :: others ∧
      IsNumber number ∧ Spells letters rest others ∧ letter ++ number ++ rest = label := by
  constructor
  · intro spells
    obtain ⟨complete, decimal, joined⟩ := spells
    cases numbers with
    | nil => cases complete
    | cons number others =>
        obtain ⟨here, later⟩ := List.forall_mem_cons.mp decimal
        rw [List.zipWith_cons_cons, String.join_cons] at joined
        exact ⟨number, others, _, rfl, here, ⟨Nat.succ.inj complete, later, rfl⟩, joined⟩
  · intro holds
    obtain ⟨number, others, rest, rfl, here, ⟨complete, later, rfl⟩, rfl⟩ := holds
    refine ⟨congrArg Nat.succ complete, List.forall_mem_cons.mpr ⟨here, later⟩, ?_⟩
    rw [List.zipWith_cons_cons, String.join_cons]

theorem not_mem_of_distinct (distinct : (seen ++ letter :: letters).Nodup) : letter ∉ seen :=
  fun member => (List.nodup_append.mp distinct).2.2 _ member _ List.mem_cons_self rfl

/-- The ways to meet the demands of a form are the ways to spell a label. -/
theorem meets_iff_spells (distinct : (seen ++ letters).Nodup) :
    Plan.Meets known (Plan.demandsAfter seen (formSegments letters)) text numbers ↔
      Spells letters (String.ofList text) numbers := by
  induction letters generalizing seen known text numbers with
  | nil =>
      have empty : String.ofList text = "" ↔ text = [] := by simp
      rw [spells_nil, empty]
      exact Plan.meets_nil
  | cons letter letters ih =>
      have fresh : seen.idxOf? letter = none :=
        List.idxOf?_eq_none_iff.mpr (not_mem_of_distinct distinct)
      have later : (seen ++ [letter] ++ letters).Nodup := by rwa [List.append_assoc]
      rw [spells_cons, formSegments_cons, Plan.demandsAfter, Plan.demandsAfter, fresh]
      constructor
      · intro way
        cases way with
        | text rest =>
          cases rest with
          | capture admitted rest =>
            refine ⟨_, _, _, rfl, admits_iff_isNumber.mp admitted, (ih later).mp rest, ?_⟩
            simp [String.ofList_append, String.append_assoc]
      · intro holds
        obtain ⟨number, others, rest, rfl, decimal, spells, joined⟩ := holds
        have spelled : text = letter.toList ++ (number.toList ++ rest.toList) := by
          rw [← @String.toList_ofList text, ← joined]
          simp
        rw [spelled]
        refine .text (.capture (admits_iff_isNumber.mpr decimal) ((ih later).mpr ?_))
        rwa [String.ofList_toList]

theorem namesAfter_formSegments (distinct : (seen ++ letters).Nodup) :
    Segment.namesAfter seen (formSegments letters) = letters := by
  induction letters generalizing seen with
  | nil => rfl
  | cons letter letters ih =>
      rw [formSegments_cons, Segment.namesAfter,
        Segment.namesAfter_fresh (not_mem_of_distinct distinct), ih]
      rwa [List.append_assoc]

theorem occurrences_formSegments (letters : List String) :
    Segment.occurrences (formSegments letters) = letters := by
  induction letters with
  | nil => rfl
  | cons letter letters ih => rw [formSegments_cons, Segment.occurrences, Segment.occurrences, ih]

end Form

namespace Reads

variable {template : Template} {letters numbers : List String} {label : String}
  (reads : Reads template letters)

include reads

theorem fields_eq : template.fields = letters := by
  rw [Template.fields, reads.segments]
  exact namesAfter_formSegments reads.distinct

theorem fits_iff_spells : template.Fits label numbers ↔ Spells letters label numbers := by
  have demands := @meets_iff_spells letters numbers [] [] label.toList reads.distinct
  rwa [String.ofList_toList, ← reads.segments, ← Plan.demands, Template.meets_iff_fits] at demands

/-- No letter comes twice, so no attempt runs into a limit. -/
theorem finished_settled (label : String) :
    ¬ template.GivesUp label ∧ ¬ template.Overflows label := by
  apply Template.attempt_of_nodup
  rw [reads.segments, occurrences_formSegments]
  exact reads.distinct

/-- The numbers that are read from a label spell it. -/
theorem spells_of_parseValues (parsed : (template.parseValues label).outcome = .ok numbers) :
    Spells letters label numbers :=
  reads.fits_iff_spells.mp (Template.fits_of_reading? (Template.outcome_parseValues_eq_ok.mp parsed))

/-- A label is read exactly when it has the form. -/
theorem exists_parseValues_iff :
    (∃ numbers, (template.parseValues label).outcome = .ok numbers) ↔ HasForm letters label := by
  constructor
  · intro holds
    obtain ⟨numbers, parsed⟩ := holds
    exact ⟨numbers, reads.spells_of_parseValues parsed⟩
  · intro holds
    obtain ⟨numbers, spells⟩ := holds
    obtain ⟨finished, settled⟩ := reads.finished_settled label
    have read := Template.isSome_reading? finished settled (reads.fits_iff_spells.mpr spells)
    obtain ⟨found, read⟩ := Option.isSome_iff_exists.mp read
    exact ⟨found, Template.outcome_parseValues_eq_ok.mpr read⟩

/-- A label of another form is named as what could not be read. -/
theorem parseValues_eq_error (formless : ¬ HasForm letters label) :
    (template.parseValues label).outcome = .error (.unreadablePath label (formOf letters)) := by
  cases read : template.reading? label with
  | some numbers =>
      exact absurd (reads.exists_parseValues_iff.mp ⟨_, Template.outcome_parseValues_eq_ok.mpr read⟩)
        formless
  | none =>
      rw [Template.parseValues, Logged.outcome_bind,
        Template.outcome_captures (reads.finished_settled label).2, read, reads.pattern]
      rfl

end Reads

section Columns

variable {table next : Table} {rows : List Row} {parsed : List (List String)}
  {fields : List String} {field : String} {offset : Nat}

/-- Every row with more values at its end. -/
def withValues (rows : List Row) (values : List (List String)) : List Row :=
  rows.zipWith (fun row more => ⟨row.path, row.values ++ more⟩) values

theorem withValues_of_nil (height : parsed.length = rows.length)
    (width : ∀ values ∈ parsed, values.length = offset) :
    withValues rows (parsed.map (List.drop offset)) = rows := by
  induction rows generalizing parsed with
  | nil => rfl
  | cons row rest ih =>
      cases parsed with
      | nil => cases height
      | cons values parsed =>
          obtain ⟨here, later⟩ := List.forall_mem_cons.mp width
          have none : values.drop offset = [] := List.drop_eq_nil_of_le (Nat.le_of_eq here)
          rw [List.map_cons, withValues, List.zipWith_cons_cons, ← withValues,
            ih (Nat.succ.inj height) later, none, List.append_nil]

/-- One column and then the columns after it are the columns from the first of them on. -/
theorem withValues_extendRows (height : parsed.length = rows.length)
    (width : ∀ values ∈ parsed, offset < values.length) :
    withValues (Table.extendRows rows (parsed.map fun values => values.getD offset ""))
        (parsed.map (List.drop (offset + 1))) =
      withValues rows (parsed.map (List.drop offset)) := by
  induction rows generalizing parsed with
  | nil => rfl
  | cons row rest ih =>
      cases parsed with
      | nil => cases height
      | cons values parsed =>
          obtain ⟨here, later⟩ := List.forall_mem_cons.mp width
          have next : values.drop offset = values.getD offset "" :: values.drop (offset + 1) := by
            rw [List.drop_eq_getElem_cons here, List.getD_eq_getElem _ _ here]
          have others := ih (Nat.succ.inj height) later
          rw [withValues, Table.extendRows] at others
          simp only [withValues, Table.extendRows, List.map_cons, List.zipWith_cons_cons, next,
            List.append_assoc, List.singleton_append, others]

/-- A new column is added before the columns after it. -/
theorem addColumns_cons (height : parsed.length = table.rows.length)
    (new : field ∉ table.columns) (fields : List String) (offset : Nat) :
    addColumns parsed ((field :: fields).zipIdx offset) table =
      addColumns parsed (fields.zipIdx (offset + 1)) ⟨table.columns ++ [field],
        Table.extendRows table.rows (parsed.map fun values => values.getD offset "")⟩ := by
  have tall : (parsed.map fun values => values.getD offset "").length = table.rows.length := by
    rw [List.length_map, height]
  rw [List.zipIdx_cons, addColumns, Table.withColumn_eq_ok.mpr ⟨new, tall, rfl⟩]
  rfl

/-- Distinct new columns stay new when one of them has been added. -/
theorem not_mem_concat {columns : List String} (apart : field ∉ fields)
    (free : ∀ other ∈ fields, other ∉ columns) : ∀ other ∈ fields, other ∉ columns ++ [field] := by
  intro other member
  have differs : other ≠ field := fun same => apart (same ▸ member)
  simp [free other member, differs]

theorem height_extendRows (height : parsed.length = rows.length) :
    parsed.length =
      (Table.extendRows rows (parsed.map fun values => values.getD offset "")).length := by
  rw [Table.extendRows, List.length_zipWith, List.length_map, height, Nat.min_self]

/-- Columns are added together when none of them is there. -/
theorem addColumns_of_free (distinct : fields.Nodup) (height : parsed.length = table.rows.length)
    (width : ∀ values ∈ parsed, values.length = offset + fields.length)
    (free : ∀ field ∈ fields, field ∉ table.columns) :
    addColumns parsed (fields.zipIdx offset) table =
      .ok ⟨table.columns ++ fields, withValues table.rows (parsed.map (List.drop offset))⟩ := by
  induction fields generalizing offset table with
  | nil =>
      have unchanged : withValues table.rows (parsed.map (List.drop offset)) = table.rows :=
        withValues_of_nil height width
      rw [unchanged, List.append_nil]
      rfl
  | cons field fields ih =>
      obtain ⟨apart, distinct⟩ := List.nodup_cons.mp distinct
      obtain ⟨new, free⟩ := List.forall_mem_cons.mp free
      have longer : ∀ values ∈ parsed, values.length = offset + 1 + fields.length := by
        intro values member
        rw [width values member, List.length_cons]
        omega
      have inside : ∀ values ∈ parsed, offset < values.length := by
        intro values member
        rw [longer values member]
        omega
      rw [addColumns_cons height new, ih distinct (height_extendRows height) longer
        (not_mem_concat apart free), withValues_extendRows height inside, List.append_assoc]
      rfl

/-- The first column that is there keeps all from being added. -/
theorem addColumns_of_taken {before after : List String} (distinct : before.Nodup)
    (height : parsed.length = table.rows.length)
    (free : ∀ earlier ∈ before, earlier ∉ table.columns) (taken : field ∈ table.columns) :
    addColumns parsed ((before ++ field :: after).zipIdx offset) table =
      .error (.misfit (.columnExists field)) := by
  induction before generalizing offset table with
  | nil =>
      have refused (values : List String) :
          table.withColumn field values = .error (.misfit (.columnExists field)) := by
        rw [Table.withColumn, if_pos (by simpa using taken)]
      rw [List.nil_append, List.zipIdx_cons, addColumns, refused]
      rfl
  | cons first before ih =>
      obtain ⟨apart, distinct⟩ := List.nodup_cons.mp distinct
      obtain ⟨new, free⟩ := List.forall_mem_cons.mp free
      rw [List.cons_append, addColumns_cons height new]
      refine ih distinct (height_extendRows height) ?_ (List.mem_append_left _ taken)
      exact not_mem_concat apart free

/-- Columns are added exactly when none of them is there. -/
theorem addColumns_eq_ok (distinct : fields.Nodup) (height : parsed.length = table.rows.length)
    (width : ∀ values ∈ parsed, values.length = fields.length) :
    addColumns parsed fields.zipIdx table = .ok next ↔
      (∀ field ∈ fields, field ∉ table.columns) ∧
        next = ⟨table.columns ++ fields, withValues table.rows parsed⟩ := by
  cases found : fields.find? fun field => field ∈ table.columns with
  | none =>
      have free : ∀ field ∈ fields, field ∉ table.columns := by simpa using found
      have wide : ∀ values ∈ parsed, values.length = 0 + fields.length := by
        simpa only [Nat.zero_add] using width
      have whole : parsed.map (List.drop 0) = parsed := List.map_id parsed
      rw [addColumns_of_free distinct height wide free, whole, Except.ok.injEq, eq_comm,
        and_iff_right free]
  | some field =>
      obtain ⟨taken, before, after, rfl, earlier⟩ := List.find?_eq_some_iff_append.mp found
      have taken : field ∈ table.columns := by simpa using taken
      have free : ∀ other ∈ before, other ∉ table.columns := by simpa using earlier
      rw [addColumns_of_taken (List.nodup_append.mp distinct).1 height free taken]
      refine ⟨nofun, fun holds => ?_⟩
      exact absurd taken (holds.1 field (by simp))

/-- What was read of each row stands at its end. -/
theorem forall₂_withValues {reads : Row → List String → Prop}
    (each : List.Forall₂ reads rows parsed) :
    List.Forall₂ (fun row extended => ∃ values, reads row values ∧
      extended = ⟨row.path, row.values ++ values⟩) rows (withValues rows parsed) := by
  induction each with
  | nil => exact .nil
  | cons here _ ih => exact .cons ⟨_, here, rfl⟩ ih

variable {columns : List String} {row : Row} {values : List String}

/-- Old columns keep their values. -/
theorem value_old (aligned : row.values.length = columns.length) (column : field ∈ columns) :
    (⟨columns ++ fields, rows⟩ : Table).value ⟨row.path, row.values ++ values⟩ field =
      row.cell (columns.idxOf field) := by
  have inside : columns.idxOf field < row.values.length := by
    rw [aligned]
    exact List.idxOf_lt_length_of_mem column
  rw [Table.value, List.idxOf_append_of_mem column, Row.cell, List.getD_append _ _ _ _ inside]
  rfl

/-- New columns have the values at the end, in order. -/
theorem map_value_new (aligned : row.values.length = columns.length)
    (complete : values.length = fields.length) (distinct : fields.Nodup)
    (free : ∀ field ∈ fields, field ∉ columns) :
    fields.map ((⟨columns ++ fields, rows⟩ : Table).value ⟨row.path, row.values ++ values⟩) =
      values := by
  refine List.ext_getElem (by rw [List.length_map, complete]) fun index inside within => ?_
  have listed : index < fields.length := complete ▸ within
  rw [List.getElem_map, Table.value,
    List.idxOf_append_of_notMem (free _ (List.getElem_mem listed)), distinct.idxOf_getElem, Row.cell,
    List.getD_append_right _ _ _ _ (by omega), aligned, Nat.add_sub_cancel_left,
    List.getD_eq_getElem _ _ within]

end Columns

/-- The label of a row. -/
def label (table : Table) (row : Row) : String :=
  table.value row labelColumn

/-- The letters of the labels of a table, which the label of the first row decides on. -/
def letters (table : Table) : List String :=
  lettersOf (table.rows.head?.elim "" (label table))

/-- Of the numbers of all labels columns are made when none of the letters is a column. -/
theorem addColumns_spelled_eq_ok {table next : Table} (distinct : (letters table).Nodup)
    {parsed : List (List String)}
    (spelled : List.Forall₂ (fun row => Spells (letters table) (label table row)) table.rows parsed) :
    addColumns parsed (letters table).zipIdx table = .ok next ↔
      (∀ letter ∈ letters table, letter ∉ table.columns) ∧
        next = ⟨table.columns ++ letters table, withValues table.rows parsed⟩ := by
  refine addColumns_eq_ok distinct spelled.length_eq.symm fun numbers member => ?_
  obtain ⟨row, spells⟩ := exists_of_forall₂ spelled.flip numbers member
  exact spells.complete

section Whole

variable {table next : Table} (column : labelColumn ∈ table.columns) (filled : table.rows ≠ [])

include column filled

/-- The labels are read one after the other, and then the columns are added. -/
theorem parseLabels_eq :
    ∃ template, Reads template (letters table) ∧ parseLabels table =
      Logged.each template.parseValues (table.rows.map (label table)) >>= fun parsed =>
        Logged.ofExcept (addColumns parsed (letters table).zipIdx table) := by
  have labels : table.column labelColumn = .ok (table.rows.map (label table)) := by
    rw [Table.column, Table.columnIndex_of_mem column]
    rfl
  obtain ⟨columns, rows⟩ := table
  cases rows with
  | nil => exact absurd rfl filled
  | cons first rest =>
      obtain ⟨template, compiled, reads⟩ := exists_reads (label ⟨columns, first :: rest⟩ first)
      refine ⟨template, reads, ?_⟩
      rw [parseLabels, labels, Logged.ofExcept_ok_bind, List.map_cons]
      dsimp only
      rw [compiled, Logged.ofExcept_ok_bind, reads.fields_eq]
      rfl

/-- When all labels have the form, only the columns can fail. -/
theorem exists_parsed
    (formed : ∀ row ∈ table.rows, HasForm (letters table) (label table row)) :
    ∃ parsed, List.Forall₂ (fun row => Spells (letters table) (label table row)) table.rows parsed ∧
      (parseLabels table).outcome = addColumns parsed (letters table).zipIdx table := by
  obtain ⟨template, reads, run⟩ := parseLabels_eq column filled
  obtain ⟨parsed, worked⟩ := exists_forall₂ fun row member =>
    reads.exists_parseValues_iff.mpr (formed row member)
  have ended := Logged.outcome_each_eq_ok.mpr (List.forall₂_map_left_iff.mpr worked)
  refine ⟨parsed, worked.imp fun _ _ one => reads.spells_of_parseValues one, ?_⟩
  rw [run, Logged.outcome_bind, ended]
  rfl

/-- The first label of another form is named, whatever the columns are. -/
theorem parseLabels_of_formless {before after : List Row} {row : Row}
    (cut : table.rows = before ++ row :: after)
    (formed : ∀ earlier ∈ before, HasForm (letters table) (label table earlier))
    (formless : ¬ HasForm (letters table) (label table row)) :
    (parseLabels table).outcome =
      .error (.unreadablePath (label table row) (formOf (letters table))) := by
  obtain ⟨template, reads, run⟩ := parseLabels_eq column filled
  rw [run, cut]
  refine Logged.outcome_bind_eq_error.mpr (.inl (Logged.outcome_each_eq_error.mpr
    ⟨before.map (label table), _, after.map (label table), by simp, ?_,
      reads.parseValues_eq_error formless⟩))
  rw [List.forall_mem_map]
  exact fun earlier member => reads.exists_parseValues_iff.mpr (formed earlier member)

/-- What is made of a table when its labels are taken apart. -/
theorem of_parseLabels_eq_ok (ended : (parseLabels table).outcome = .ok next) :
    ∃ parsed, List.Forall₂ (fun row => Spells (letters table) (label table row)) table.rows parsed ∧
      (∀ letter ∈ letters table, letter ∉ table.columns) ∧
      next = ⟨table.columns ++ letters table, withValues table.rows parsed⟩ := by
  obtain ⟨template, reads, run⟩ := parseLabels_eq column filled
  rw [run] at ended
  obtain ⟨parsed, worked, added⟩ := Logged.outcome_bind_eq_ok.mp ended
  rw [Logged.outcome_each_eq_ok, List.forall₂_map_left_iff] at worked
  have spelled := worked.imp fun _ _ one => reads.spells_of_parseValues one
  exact ⟨parsed, spelled, (addColumns_spelled_eq_ok reads.distinct spelled).mp added⟩

/-- Labels are taken apart when all have the form and none of the letters is a column. -/
theorem exists_parseLabels_iff :
    (∃ next, (parseLabels table).outcome = .ok next) ↔
      (∀ row ∈ table.rows, HasForm (letters table) (label table row)) ∧
        ∀ letter ∈ letters table, letter ∉ table.columns := by
  constructor
  · intro holds
    obtain ⟨next, ended⟩ := holds
    obtain ⟨parsed, spelled, free, _⟩ := of_parseLabels_eq_ok column filled ended
    exact ⟨exists_of_forall₂ spelled, free⟩
  · intro holds
    obtain ⟨formed, free⟩ := holds
    obtain ⟨_, reads, _⟩ := parseLabels_eq column filled
    obtain ⟨parsed, spelled, run⟩ := exists_parsed column filled formed
    exact ⟨_, run.trans ((addColumns_spelled_eq_ok reads.distinct spelled).mpr ⟨free, rfl⟩)⟩

/-- By the names of the columns, old values are as before and the new ones spell the label. -/
theorem values_of_parseLabels (aligned : table.Aligned)
    (ended : (parseLabels table).outcome = .ok next) :
    List.Forall₂ (fun row extended =>
      (∀ name ∈ table.columns, next.value extended name = table.value row name) ∧
      Spells (letters table) (label next extended) ((letters table).map (next.value extended)))
        table.rows next.rows := by
  obtain ⟨_, reads, _⟩ := parseLabels_eq column filled
  obtain ⟨parsed, spelled, free, rfl⟩ := of_parseLabels_eq_ok column filled ended
  have each := (List.forall₂_and_left _ _).mpr ⟨aligned, forall₂_withValues spelled⟩
  refine each.imp fun row extended holds => ?_
  obtain ⟨width, numbers, spells, rfl⟩ := holds
  refine ⟨fun name known => value_old width known, ?_⟩
  rw [map_value_new width spells.complete reads.distinct free, label, value_old width column]
  exact spells

end Whole

/-- The first letter that is a column is named once all labels have the form. -/
theorem parseLabels_of_taken {table : Table} (column : labelColumn ∈ table.columns)
    (filled : table.rows ≠ [])
    (formed : ∀ row ∈ table.rows, HasForm (letters table) (label table row))
    {before after : List String} {letter : String} (cut : letters table = before ++ letter :: after)
    (free : ∀ earlier ∈ before, earlier ∉ table.columns) (taken : letter ∈ table.columns) :
    (parseLabels table).outcome = .error (.misfit (.columnExists letter)) := by
  obtain ⟨_, reads, _⟩ := parseLabels_eq column filled
  obtain ⟨parsed, spelled, run⟩ := exists_parsed column filled formed
  have distinct := reads.distinct
  rw [cut] at run distinct
  rw [run]
  exact addColumns_of_taken (List.nodup_append.mp distinct).1 spelled.length_eq.symm free taken

/-- Labels are taken apart, all or none, when each has the form of the first one and no letter is a
column. -/
theorem parseLabels_exact {table : Table} (column : labelColumn ∈ table.columns)
    (filled : table.rows ≠ []) :
    ((∃ next, (parseLabels table).outcome = .ok next) ↔
        (∀ row ∈ table.rows, HasForm (letters table) (label table row)) ∧
          ∀ letter ∈ letters table, letter ∉ table.columns) ∧
      (∀ next, (parseLabels table).outcome = .ok next →
        next.columns = table.columns ++ letters table ∧
        List.Forall₂ (fun row extended => ∃ numbers, Spells (letters table) (label table row) numbers ∧
          extended = ⟨row.path, row.values ++ numbers⟩) table.rows next.rows ∧
        (table.Aligned → List.Forall₂ (fun row extended =>
          (∀ name ∈ table.columns, next.value extended name = table.value row name) ∧
          Spells (letters table) (label next extended) ((letters table).map (next.value extended)))
            table.rows next.rows)) ∧
      (∀ before row after, table.rows = before ++ row :: after →
        (∀ earlier ∈ before, HasForm (letters table) (label table earlier)) →
        ¬ HasForm (letters table) (label table row) →
        (parseLabels table).outcome =
          .error (.unreadablePath (label table row) (formOf (letters table)))) ∧
      ∀ before letter after, letters table = before ++ letter :: after →
        (∀ row ∈ table.rows, HasForm (letters table) (label table row)) →
        (∀ earlier ∈ before, earlier ∉ table.columns) → letter ∈ table.columns →
        (parseLabels table).outcome = .error (.misfit (.columnExists letter)) := by
  refine ⟨exists_parseLabels_iff column filled, fun next ended => ?_, ?_, ?_⟩
  · obtain ⟨parsed, spelled, _, made⟩ := of_parseLabels_eq_ok column filled ended
    refine ⟨by rw [made], ?_, fun aligned => values_of_parseLabels column filled aligned ended⟩
    rw [made]
    exact forall₂_withValues spelled
  · intro before row after cut formed formless
    exact parseLabels_of_formless column filled cut formed formless
  · intro before letter after cut formed free taken
    exact parseLabels_of_taken column filled formed cut free taken

/-- Two members of one model, with a forcing and numbers of several digits. -/
theorem parseLabels_exact_two_members :
    labelColumn ∈ ["model", "ens"] ∧ ∃ next,
      (parseLabels ⟨["model", "ens"],
        [⟨"a", ["m", "r1i1p1f2"]⟩, ⟨"b", ["m", "r10i2p03f0"]⟩]⟩).outcome = .ok next ∧
      next.columns = ["model", "ens", "r", "i", "p", "f"] := by
  have whole := @parseLabels_exact ⟨["model", "ens"],
    [⟨"a", ["m", "r1i1p1f2"]⟩, ⟨"b", ["m", "r10i2p03f0"]⟩]⟩ (by decide) (by decide)
  have four : letters ⟨["model", "ens"],
      [⟨"a", ["m", "r1i1p1f2"]⟩, ⟨"b", ["m", "r10i2p03f0"]⟩]⟩ = ["r", "i", "p", "f"] := by decide
  rw [four] at whole
  obtain ⟨next, ended⟩ := whole.1.mpr ⟨fun row member => by
    rcases List.mem_cons.mp member with rfl | member
    · exact ⟨["1", "1", "1", "2"], by decide⟩
    · rw [List.mem_singleton.mp member]
      exact ⟨["10", "2", "03", "0"], by decide⟩, by decide⟩
  exact ⟨by decide, next, ended, (whole.2.1 next ended).1⟩

end PathCatalog.Ensemble
