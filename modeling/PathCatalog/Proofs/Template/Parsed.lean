import Mathlib.Data.List.Basic
import PathCatalog.Proofs.Matching.Stretch
import PathCatalog.Proofs.Outcome
import PathCatalog.Proofs.Template.Hints

namespace PathCatalog

theorem Hint.width_of_parse? {spec : String} {hint : Hint} (read : Hint.parse? spec = some hint) :
    hint.raw = spec ∧ hint.width ≠ some 0 := by
  obtain ⟨raw, _, _, _, front, _⟩ := Hint.parse?_eq_some_iff.mp read
  refine ⟨raw, fun zero => ?_⟩
  rw [zero] at front
  exact Nat.lt_irrefl 0 front.positive

/-- The text of a hint that can be read holds digits and letters only. -/
theorem Hint.word_of_parse? {spec : String} {hint : Hint} (read : Hint.parse? spec = some hint) :
    ∀ c ∈ spec.toList, CharClass.isWordChar c = true := by
  obtain ⟨_, digits, letters, cut, front, behind⟩ := Hint.parse?_eq_some_iff.mp read
  intro c member
  rw [cut, List.mem_append] at member
  rcases member with digit | letter
  · have decimal := front.decimal c digit
    simp [CharClass.isWordChar, Char.isAlphanum, decimal]
  · exact behind.isWordChar c letter

namespace Segment

/-- A placeholder that can be written: its name is a free word, and its hint can be read. -/
structure Placeable (name : String) (hint : Option Hint) : Prop where
  named : name ≠ ""
  word : name.toList.all CharClass.isWordChar = true
  free : name ∉ reservedNames
  hinted : ∀ known, hint = some known → known.raw ≠ "" ∧ Hint.parse? known.raw = some known

/-- Characters stand for themselves, and placeholders have to be such that they can be written. -/
def Piece.Placeable : Piece → Prop
  | .char _ => True
  | .field name hint => Segment.Placeable name hint

theorem hinted_of_readHint {name spec : String} {hint : Option Hint}
    (made : readHint name spec = .ok hint) (known : Hint) (present : hint = some known) :
    known.raw ≠ "" ∧ Hint.parse? known.raw = some known := by
  subst present
  simp only [readHint] at made
  split at made
  · cases made
  · rename_i filled
    split at made
    · rename_i read
      cases made
      rw [(Hint.width_of_parse? read).1]
      exact ⟨by simpa using filled, read⟩
    · cases made

theorem placeable_readField {name spec : String} {piece : Piece}
    (made : readField name spec = .ok piece) : piece.Placeable := by
  simp only [readField] at made
  split at made
  · cases made
  rename_i named
  split at made
  · cases made
  rename_i word
  split at made
  · cases made
  rename_i free
  obtain ⟨hint, read, rfl⟩ := map_eq_ok.mp made
  exact ⟨by simpa using named, by simpa using word, by simpa using free, hinted_of_readHint read⟩

theorem placeable_readPlaceholder {inner : List Char} {piece : Piece}
    (made : readPlaceholder inner = .ok piece) : piece.Placeable := by
  simp only [readPlaceholder] at made
  split at made <;> exact placeable_readField made

theorem placeable_cons_char {scanned : Except TemplateFault (List Piece)} {c : Char}
    {pieces : List Piece} (made : scanned.map (Piece.char c :: ·) = .ok pieces)
    (others : ∀ {rest}, scanned = .ok rest → ∀ piece ∈ rest, piece.Placeable) :
    ∀ piece ∈ pieces, piece.Placeable := by
  obtain ⟨rest, read, rfl⟩ := map_eq_ok.mp made
  exact List.forall_mem_cons.mpr ⟨trivial, others read⟩

/-- Every piece of a template's text is a character or a placeholder that can be written. -/
theorem placeable_scan {text : List Char} {offset : Nat} {opened : Option (Nat × List Char)}
    {pieces : List Piece} (scanned : scan offset opened text = .ok pieces) :
    ∀ piece ∈ pieces, piece.Placeable := by
  fun_induction scan offset opened text generalizing pieces with
  | case1 => cases scanned; exact List.forall_mem_nil _
  | case2 => cases scanned
  | case3 offset rest start inner ih =>
      obtain ⟨piece, read, others⟩ := bind_eq_ok.mp scanned
      obtain ⟨rest, more, same⟩ := bind_eq_ok.mp others
      rw [← Except.ok.inj same]
      exact List.forall_mem_cons.mpr ⟨placeable_readPlaceholder read, ih more⟩
  | case4 => cases scanned
  | case5 offset c rest start inner _ _ ih => exact ih scanned
  | case6 offset more ih => exact placeable_cons_char scanned ih
  | case7 offset others _ ih => exact ih scanned
  | case8 offset more _ ih => exact placeable_cons_char scanned ih
  | case9 => cases scanned
  | case10 offset c rest _ _ ih => exact placeable_cons_char scanned ih

/-- Gathering characters makes no placeholder. -/
theorem mem_of_field_mem_gather {name : String} {hint : Option Hint} {pieces : List Piece}
    (member : Segment.field name hint ∈ gather pieces) : Piece.field name hint ∈ pieces := by
  fun_induction gather pieces with
  | case1 => cases member
  | case2 other known rest ih =>
      rcases List.mem_cons.mp member with same | later
      · cases same
        exact List.mem_cons_self ..
      · exact List.mem_cons_of_mem _ (ih later)
  | case3 c rest text more joined ih =>
      rcases List.mem_cons.mp member with same | later
      · cases same
      · exact List.mem_cons_of_mem _ (ih (by rw [joined]; exact List.mem_cons_of_mem _ later))
  | case4 c rest _ ih =>
      rcases List.mem_cons.mp member with same | later
      · cases same
      · exact List.mem_cons_of_mem _ (ih later)

/-- The placeholders of a template's text are such that they can be written. -/
theorem placeable_of_parse {pattern : String} {segments : List Segment}
    (parsed : parse pattern = .ok segments) {name : String} {hint : Option Hint}
    (member : Segment.field name hint ∈ segments) : Placeable name hint := by
  simp only [parse] at parsed
  split at parsed
  · rename_i pieces scanned
    cases parsed
    exact placeable_scan scanned _ (mem_of_field_mem_gather member)
  · cases parsed

end Segment

namespace Plan

/-- Every capture among the demands of some segments comes from a placeholder among them. -/
theorem capture_of_mem_demandsAfter {seen : List String} {segments : List Segment} {shape : Shape}
    (member : Demand.capture shape ∈ demandsAfter seen segments) :
    ∃ name hint, Segment.field name hint ∈ segments ∧ shape = Shape.ofHint hint := by
  fun_induction demandsAfter seen segments with
  | case1 => cases member
  | case2 seen text rest ih =>
      obtain ⟨name, hint, found, same⟩ := ih (by simpa using member)
      exact ⟨name, hint, List.mem_cons_of_mem _ found, same⟩
  | case3 seen name hint rest index _ ih =>
      obtain ⟨other, known, found, same⟩ := ih (by simpa using member)
      exact ⟨other, known, List.mem_cons_of_mem _ found, same⟩
  | case4 seen name hint rest _ ih =>
      rcases List.mem_cons.mp member with same | later
      · cases same
        exact ⟨name, hint, List.mem_cons_self .., rfl⟩
      · obtain ⟨other, known, found, same⟩ := ih later
        exact ⟨other, known, List.mem_cons_of_mem _ found, same⟩

end Plan

/-- The demands of a template never ask for an empty value. -/
theorem Template.sized_demands (template : Template) :
    Plan.Sized (Plan.demands template.segments) := by
  intro shape member zero
  obtain ⟨name, hint, found, rfl⟩ := Plan.capture_of_mem_demandsAfter member
  cases hint with
  | none => cases zero
  | some known =>
      have readable := (Segment.placeable_of_parse template.parsed found).hinted known rfl
      exact (Hint.width_of_parse? readable.2).2 zero

/-- A template is compiled from its pattern, unless its widths are too large. -/
theorem Template.compile_eq_ok {pattern : String} {template : Template} :
    compile pattern = .ok template ↔
      template.pattern = pattern ∧
        Plan.largestWidth (Plan.demands template.segments) ≤ Plan.widthLimit := by
  constructor
  · intro compiled
    unfold compile at compiled
    split at compiled
    · cases compiled
    · split at compiled
      next fits =>
        cases compiled
        exact ⟨rfl, fits⟩
      next => cases compiled
  · intro holds
    obtain ⟨rfl, fits⟩ := holds
    unfold compile
    have parsed := template.parsed
    split
    next failed => simp_all
    next segments other =>
      obtain rfl : template.segments = segments := Except.ok.inj (parsed.symm.trans other)
      rw [if_pos fits]

end PathCatalog
