import Mathlib.Data.List.Forall2
import PathCatalog.Proofs.Table.Descent
import PathCatalog.Proofs.Text.Words
import PathCatalog.Table.Display

namespace PathCatalog.Table

section Widths

variable {widths : List Nat} {cells : List String} {rows : List (List String)} {width : Nat}

/-- No cell is longer than its width. -/
def Fits (cells : List String) (widths : List Nat) : Prop :=
  List.Forall₂ (fun cell width => cell.length ≤ width) cells widths

/-- What fits still does when the widths grow. -/
theorem Fits.widen (fits : Fits cells widths) (other : List String) :
    Fits cells (widen widths other) := by
  induction fits generalizing other with
  | nil => cases other <;> exact .nil
  | cons fits later ih =>
      cases other with
      | nil => exact .cons fits later
      | cons cell rest => exact .cons (Nat.le_trans fits (Nat.le_max_left _ _)) (ih rest)

/-- The cells for which the widths grow fit afterwards. -/
theorem fits_widen (aligned : cells.length = widths.length) : Fits cells (widen widths cells) := by
  induction widths generalizing cells with
  | nil => rw [List.length_eq_zero_iff.mp aligned]; exact .nil
  | cons width widths ih =>
      cases cells with
      | nil => cases aligned
      | cons cell cells => exact .cons (Nat.le_max_right _ _) (ih (Nat.succ.inj aligned))

/-- A width is one from before or the length of a cell. -/
theorem mem_widen (member : width ∈ widen widths cells) :
    width ∈ widths ∨ ∃ cell ∈ cells, cell.length = width := by
  induction widths generalizing cells with
  | nil => cases cells <;> cases member
  | cons first widths ih =>
      cases cells with
      | nil => exact .inl member
      | cons cell cells =>
          rw [Table.widen, List.mem_cons] at member
          rcases member with rfl | later
          · rcases Nat.le_total first cell.length with grown | kept
            · exact .inr ⟨cell, List.mem_cons_self, (Nat.max_eq_right grown).symm⟩
            · exact .inl (by simp [Nat.max_eq_left kept])
          · rcases ih later with old | ⟨other, inside, same⟩
            · exact .inl (List.mem_cons_of_mem _ old)
            · exact .inr ⟨other, List.mem_cons_of_mem _ inside, same⟩

theorem Fits.run (fits : Fits cells widths) (rows : List (List String)) :
    Fits cells (rows.foldl Table.widen widths) := by
  induction rows generalizing widths with
  | nil => exact fits
  | cons row rows ih => exact ih (fits.widen row)

/-- Every row fits the widths that have grown for all of them. -/
theorem fits_run (aligned : ∀ row ∈ rows, row.length = widths.length) (member : cells ∈ rows) :
    Fits cells (rows.foldl widen widths) := by
  induction rows generalizing widths with
  | nil => cases member
  | cons row rows ih =>
      rw [List.forall_mem_cons] at aligned
      have fits := fits_widen aligned.1
      rcases List.mem_cons.mp member with rfl | later
      · exact fits.run rows
      · have kept : (Table.widen widths row).length = widths.length :=
          fits.length_eq.symm.trans aligned.1
        exact ih (fun other inside => (aligned.2 other inside).trans kept.symm) later

theorem mem_run (member : width ∈ rows.foldl widen widths) :
    width ∈ widths ∨ ∃ row ∈ rows, ∃ cell ∈ row, cell.length = width := by
  induction rows generalizing widths with
  | nil => exact .inl member
  | cons row rows ih =>
      rcases ih member with grown | ⟨other, inside, found⟩
      · exact (mem_widen grown).imp_right fun found => ⟨row, List.mem_cons_self, found⟩
      · exact .inr ⟨other, List.mem_cons_of_mem _ inside, found⟩

end Widths

/-- What is printed: the header and the rows. -/
def printedRows (table : Table) : List (List String) :=
  table.header :: table.rows.map printedCells

section Whole

variable {table : Table} {cells : List String}

theorem length_printed (aligned : table.Aligned) (member : cells ∈ table.printedRows) :
    cells.length = table.columns.length + 1 := by
  rcases List.mem_cons.mp member with rfl | later
  · rfl
  · obtain ⟨row, inside, rfl⟩ := List.mem_map.mp later
    exact congrArg (· + 1) (aligned row inside)

theorem fits_widths (aligned : table.Aligned) (member : cells ∈ table.printedRows) :
    Fits cells table.widths := by
  rcases List.mem_cons.mp member with rfl | later
  · have first : Fits table.header (table.header.map String.length) :=
      List.forall₂_map_right_iff.mpr (List.forall₂_same.mpr fun _ _ => Nat.le_refl _)
    exact first.run _
  · refine fits_run (fun row inside => ?_) later
    rw [List.length_map]
    exact length_printed aligned (List.mem_cons_of_mem _ inside)

/-- All widths are within a bound just when all cells are. -/
theorem widths_le_iff (aligned : table.Aligned) {bound : Nat} :
    (∀ width ∈ table.widths, width ≤ bound) ↔
      ∀ cells ∈ table.printedRows, ∀ cell ∈ cells, cell.length ≤ bound := by
  constructor
  · intro narrow cells member cell inside
    have fits := (List.forall₂_and_left _ _).mpr ⟨narrow, (fits_widths aligned member).flip⟩
    obtain ⟨width, bounded, fit⟩ := exists_of_forall₂ fits.flip cell inside
    exact Nat.le_trans fit bounded
  · intro narrow width member
    rcases mem_run member with first | later
    · obtain ⟨cell, inside, rfl⟩ := List.mem_map.mp first
      exact narrow _ List.mem_cons_self _ inside
    · obtain ⟨row, held, cell, inside, rfl⟩ := later
      exact narrow _ (List.mem_cons_of_mem _ held) _ inside

end Whole

section Lines

variable {widths : List Nat} {cells : List String} {place : Nat}

/-- The places where columns begin: two spaces stand behind the width of each. -/
def places (place : Nat) : List Nat → List Nat
  | [] => []
  | width :: widths => place :: places (place + width + 2) widths

theorem length_places (place : Nat) (widths : List Nat) :
    (places place widths).length = widths.length := by
  induction widths generalizing place with
  | nil => rfl
  | cons width widths ih => rw [places, List.length_cons, ih, List.length_cons]

/-- The cells with the spaces that fill their widths and stand between them. -/
def filled (widths : List Nat) (cells : List String) : List Char :=
  (Text.joined "  " ((cells.zip widths).map fun cell => Text.padded cell.2 cell.1)).toList

/-- A line without the blanks at its end. -/
def line (widths : List Nat) (cells : List String) : String :=
  String.ofList (Text.trimEnd (filled widths cells))

theorem filled_singleton (width : Nat) (cell : String) :
    filled [width] [cell] = cell.toList ++ List.replicate (width - cell.length) ' ' := by
  simp [filled, Text.joined, Text.padded]

theorem filled_cons (width next : Nat) (cell second : String) :
    filled (width :: next :: widths) (cell :: second :: cells) = cell.toList ++
      (List.replicate (width - cell.length + 1 + 1) ' ' ++
        filled (next :: widths) (second :: cells)) := by
  rw [filled, List.zip_cons_cons, List.zip_cons_cons, List.map_cons, List.map_cons, Text.joined,
    String.intercalate_cons_cons]
  simp [Text.padded, filled, Text.joined, List.replicate_succ']

/-- The words of a line are its cells, each at the place of its column. -/
theorem wordsFrom_trimEnd_filled (fits : Fits cells widths)
    (solid : ∀ cell ∈ cells, Text.Solid cell) (some : cells ≠ []) :
    Text.wordsFrom place (Text.trimEnd (filled widths cells)) =
      (places place widths).zip (cells.map String.toList) := by
  induction fits generalizing place with
  | nil => exact absurd rfl some
  | @cons cell width cells widths fits later ih =>
      rw [List.forall_mem_cons] at solid
      obtain ⟨whole, others⟩ := solid
      cases later with
      | nil =>
          rw [filled_singleton, Text.trimEnd_spaces, Text.trimEnd_eq_self whole.2,
            Text.wordsFrom_last whole.filled whole.whole]
          rfl
      | @cons second next cells widths =>
          have rest := @ih (place + width + 2) others nofun
          have filledRest : Text.trimEnd (filled (next :: widths) (second :: cells)) ≠ [] := by
            intro empty
            rw [empty, Text.wordsFrom_nil] at rest
            cases rest
          have behind : place + cell.toList.length + (width - cell.length + 1 + 1) =
              place + width + 2 := by
            rw [String.length_toList]
            omega
          rw [filled_cons, Text.trimEnd_append, Text.trimEnd_append filledRest,
            Text.wordsFrom_word whole.filled whole.whole, behind, rest]
          · rfl
          · rw [Text.trimEnd_append filledRest]
            exact List.append_ne_nil_of_right_ne_nil _ filledRest

theorem words_line (fits : Fits cells widths) (solid : ∀ cell ∈ cells, Text.Solid cell)
    (some : cells ≠ []) : Text.words (line widths cells) = (places 0 widths).zip cells := by
  rw [Text.words, line, String.toList_ofList, wordsFrom_trimEnd_filled fits solid some,
    List.zip_map_right, List.map_map]
  refine (List.map_congr_left fun word _ => ?_).trans (List.map_id _)
  rw [Function.comp_apply, Prod.map_fst, Prod.map_snd, String.ofList_toList]
  rfl

/-- Between solid cells there are only spaces. -/
theorem eq_space_of_mem_filled (fits : Fits cells widths)
    (solid : ∀ cell ∈ cells, Text.Solid cell) {c : Char} (member : c ∈ filled widths cells)
    (blank : Text.isBlank c = true) : c = ' ' := by
  induction fits with
  | nil => cases member
  | @cons cell width cells widths fits later ih =>
      rw [List.forall_mem_cons] at solid
      obtain ⟨whole, others⟩ := solid
      have outside : c ∉ cell.toList := fun inside =>
        Bool.false_ne_true ((whole.2 c inside).symm.trans blank)
      cases later with
      | nil =>
          rw [filled_singleton] at member
          exact List.eq_of_mem_replicate ((List.mem_append.mp member).resolve_left outside)
      | cons =>
          rw [filled_cons] at member
          rcases List.mem_append.mp ((List.mem_append.mp member).resolve_left outside) with
            between | behind
          · exact List.eq_of_mem_replicate between
          · exact ih others behind

/-- A line has no white space other than spaces. -/
theorem not_mem_line (fits : Fits cells widths) (solid : ∀ cell ∈ cells, Text.Solid cell) {c : Char}
    (blank : Text.isBlank c = true) (other : c ≠ ' ') : c ∉ (line widths cells).toList := by
  intro member
  rw [line, String.toList_ofList] at member
  exact other (eq_space_of_mem_filled fits solid (Text.mem_of_mem_trimEnd member) blank)

end Lines

section Printing

variable {table : Table} {widths : List Nat} {cells : List String}

theorem mapM_eq_some_map {Item Value : Type} {items : List Item} {make? : Item → Option Value}
    {make : Item → Value} (each : ∀ item ∈ items, make? item = some (make item)) :
    items.mapM make? = some (items.map make) := by
  induction items with
  | nil => rfl
  | cons item rest ih =>
      rw [List.forall_mem_cons] at each
      rw [List.mapM_cons, each.1, ih each.2]
      rfl

theorem mapM_eq_none {Item Value : Type} {items : List Item} {make? : Item → Option Value}
    {item : Item} (member : item ∈ items) (missing : make? item = none) :
    items.mapM make? = none := by
  induction items with
  | nil => cases member
  | cons first rest ih =>
      rw [List.mapM_cons]
      rcases List.mem_cons.mp member with rfl | later
      · rw [missing]
        rfl
      · rw [ih later]
        cases make? first <;> rfl

theorem line?_of_narrow (narrow : ∀ width ∈ widths, width ≤ Text.widest) :
    line? widths cells = some (line widths cells) := by
  have padded : ∀ cell ∈ cells.zip widths,
      Text.padded? cell.2 cell.1 = some (Text.padded cell.2 cell.1) :=
    fun cell member => if_pos (narrow _ (List.of_mem_zip member).2)
  rw [line?, mapM_eq_some_map padded]
  rfl

theorem line?_of_wide (fits : Fits cells widths) {width : Nat} (member : width ∈ widths)
    (wide : Text.widest < width) : line? widths cells = none := by
  rw [← List.map_snd_zip (Nat.le_of_eq fits.length_eq.symm)] at member
  obtain ⟨cell, inside, rfl⟩ := List.mem_map.mp member
  have missing : Text.padded? cell.2 cell.1 = none := if_neg (Nat.not_le.mpr wide)
  rw [line?, mapM_eq_none inside missing]
  rfl

/-- Within the widths that a cell can have, the lines are printed one after the other. -/
theorem display?_of_narrow (narrow : ∀ width ∈ table.widths, width ≤ Text.widest) :
    table.display? =
      some (String.join ((table.printedRows.map (line table.widths)).map (· ++ "\n"))) := by
  have printed : table.printedLines? = some (table.printedRows.map (line table.widths)) :=
    mapM_eq_some_map fun _ _ => line?_of_narrow narrow
  rw [display?, printed]
  rfl

theorem display?_of_wide (aligned : table.Aligned) {width : Nat} (member : width ∈ table.widths)
    (wide : Text.widest < width) : table.display? = none := by
  have unprinted : table.printedLines? = none :=
    mapM_eq_none List.mem_cons_self
      (line?_of_wide (fits_widths aligned List.mem_cons_self) member wide)
  rw [display?, unprinted]
  rfl

end Printing

/-- The columns, paths and values of a table. -/
def texts (table : Table) : List String :=
  table.columns ++ table.rows.flatMap printedCells

section Texts

variable {table : Table}

theorem forall_printed_iff {property : String → Prop} (path : property "path") :
    (∀ cells ∈ table.printedRows, ∀ cell ∈ cells, property cell) ↔
      ∀ text ∈ table.texts, property text := by
  simp only [printedRows, header, texts, List.forall_mem_cons, List.forall_mem_append,
    List.forall_mem_map, List.forall_mem_flatMap, path, true_and]

theorem narrow_iff (aligned : table.Aligned) : (∀ width ∈ table.widths, width ≤ Text.widest) ↔
    ∀ text ∈ table.texts, text.length ≤ Text.widest :=
  (widths_le_iff aligned).trans
    (@forall_printed_iff _ (fun text => text.length ≤ Text.widest) (by decide))

/-- A table is printed unless one of its texts is longer than a cell can be. -/
theorem display?_eq_none_iff (aligned : table.Aligned) :
    table.display? = none ↔ ∃ text ∈ table.texts, Text.widest < text.length := by
  by_cases narrow : ∀ width ∈ table.widths, width ≤ Text.widest
  · rw [display?_of_narrow narrow]
    refine iff_of_false nofun fun long => ?_
    obtain ⟨text, member, wide⟩ := long
    exact Nat.not_le.mpr wide ((narrow_iff aligned).mp narrow text member)
  · have long : ∃ text ∈ table.texts, Text.widest < text.length := by
      simpa [narrow_iff aligned] using narrow
    have wide : ∃ width ∈ table.widths, Text.widest < width := by
      simpa using narrow
    obtain ⟨width, member, wide⟩ := wide
    exact iff_of_true (display?_of_wide aligned member wide) long

/-- The lines of a printed table whose texts are solid. -/
theorem lines_printed (aligned : table.Aligned)
    (solid : ∀ cells ∈ table.printedRows, ∀ cell ∈ cells, Text.Solid cell) :
    Text.lines (String.join ((table.printedRows.map (line table.widths)).map (· ++ "\n"))) =
      table.printedRows.map (line table.widths) := by
  refine Text.lines_ended fun printed member => ?_
  obtain ⟨cells, inside, rfl⟩ := List.mem_map.mp member
  have fits := fits_widths aligned inside
  exact ⟨not_mem_line fits (solid cells inside) (by decide) (by decide),
    not_mem_line fits (solid cells inside) (by decide) (by decide)⟩

end Texts

/-- A table without blanks has a printed form that can be read back, unless one of its texts is
longer than a cell. -/
theorem printed_reads_back {table : Table} (aligned : table.Aligned)
    (solid : ∀ text ∈ table.texts, Text.Solid text) :
    (table.display? = none ↔ ∃ text ∈ table.texts, Text.widest < text.length) ∧
      ∀ printed, table.display? = some printed →
        ∃ offsets : List Nat, offsets.length = table.columns.length + 1 ∧
          List.Forall₂ (fun line cells => Text.words line = offsets.zip cells) (Text.lines printed)
            (table.header :: table.rows.map printedCells) := by
  refine ⟨display?_eq_none_iff aligned, fun printed shown => ⟨places 0 table.widths, ?_, ?_⟩⟩
  · have fits := fits_widths aligned (@List.mem_cons_self _ table.header _)
    rw [length_places, ← fits.length_eq]
    rfl
  · have cells : ∀ cells ∈ table.printedRows, ∀ cell ∈ cells, Text.Solid cell :=
      (forall_printed_iff (by decide)).mpr solid
    have narrow : ∀ width ∈ table.widths, width ≤ Text.widest := by
      intro width member
      by_contra wide
      rw [display?_of_wide aligned member (Nat.not_le.mp wide)] at shown
      cases shown
    rw [display?_of_narrow narrow] at shown
    cases shown
    rw [lines_printed aligned cells]
    refine List.forall₂_map_left_iff.mpr (List.forall₂_same.mpr fun row member => ?_)
    exact words_line (fits_widths aligned member) (cells row member)
      (List.ne_nil_of_length_eq_add_one (length_printed aligned member))

/-- The paths are longer than their header, and the values of a column have different lengths. -/
theorem printed_reads_back_two_rows :
    display? ⟨["exp", "m"], [⟨"a/b.nc", ["s", "x"]⟩, ⟨"c.nc", ["hist", "long"]⟩]⟩ =
        some "path    exp   m\na/b.nc  s     x\nc.nc    hist  long\n" ∧
      ∃ offsets : List Nat, offsets.length = 3 ∧
        List.Forall₂ (fun line cells => Text.words line = offsets.zip cells)
          (Text.lines "path    exp   m\na/b.nc  s     x\nc.nc    hist  long\n")
          [["path", "exp", "m"], ["a/b.nc", "s", "x"], ["c.nc", "hist", "long"]] := by
  have shown : display? ⟨["exp", "m"], [⟨"a/b.nc", ["s", "x"]⟩, ⟨"c.nc", ["hist", "long"]⟩]⟩ =
      some "path    exp   m\na/b.nc  s     x\nc.nc    hist  long\n" := by
    decide
  exact ⟨shown, (printed_reads_back (by decide) (by decide)).2 _ shown⟩

/-- A column whose name has one code point more than a cell can have cannot be printed. -/
theorem unprinted_wide_column :
    (new [String.ofList (List.replicate (Text.widest + 1) 'a')]).Aligned ∧
      (∀ text ∈ (new [String.ofList (List.replicate (Text.widest + 1) 'a')]).texts,
        Text.Solid text) ∧
      (new [String.ofList (List.replicate (Text.widest + 1) 'a')]).display? = none := by
  have unprinted : ∀ {text : String}, Text.Solid text → Text.widest < text.length →
      (new [text]).Aligned ∧ (∀ other ∈ (new [text]).texts, Text.Solid other) ∧
        (new [text]).display? = none := by
    intro text solid wide
    have aligned : (new [text]).Aligned := nofun
    refine ⟨aligned, fun other member => List.mem_singleton.mp member ▸ solid, ?_⟩
    exact (display?_eq_none_iff aligned).mpr ⟨text, List.mem_singleton_self text, wide⟩
  refine unprinted ⟨fun empty => ?_, fun c inside => ?_⟩ ?_
  · rw [← String.toList_eq_nil_iff, String.toList_ofList, List.replicate_succ] at empty
    cases empty
  · rw [String.toList_ofList] at inside
    rw [List.eq_of_mem_replicate inside]
    decide
  · rw [String.length_ofList, List.length_replicate]
    exact Nat.lt_succ_self _

end PathCatalog.Table
