import PathCatalog.Proofs.Template.Naming
import PathCatalog.Proofs.Template.Spelling

namespace PathCatalog

namespace Segment

/-- Segments one after the other; a literal at the end joins a literal that follows it. -/
def seamed : List Segment → List Segment → List Segment
  | [], right => right
  | [.literal text], .literal other :: right => .literal (text ++ other) :: right
  | segment :: left, right => segment :: seamed left right

/-- A character joins the literal that follows it, or makes one of its own. -/
def attach (c : Char) : List Segment → List Segment
  | .literal text :: rest => .literal (String.singleton c ++ text) :: rest
  | segments => .literal (String.singleton c) :: segments

theorem gather_char (c : Char) (rest : List Piece) :
    gather (.char c :: rest) = attach c (gather rest) := by
  rw [gather]
  split
  next text more gathered => rw [gathered, attach]
  next alone => rw [attach.eq_2 c _ alone]

theorem seamed_field (name : String) (hint : Option Hint) (left right : List Segment) :
    seamed (.field name hint :: left) right = .field name hint :: seamed left right := by
  cases left <;> rfl

/-- A character in front of the first part stands in front of the whole. -/
theorem attach_seamed (c : Char) (left right : List Segment) :
    attach c (seamed left right) = seamed (attach c left) right := by
  rcases left with _ | ⟨⟨text⟩ | ⟨name, hint⟩, left⟩
  · rcases right with _ | ⟨_ | _, right⟩ <;> rfl
  · rcases left with _ | ⟨segment, left⟩
    · rcases right with _ | ⟨⟨other⟩ | _, right⟩
      · rfl
      · rw [seamed, attach, attach, seamed, String.append_assoc]
      · rfl
    · rfl
  · rw [seamed_field]
    exact congrArg (.literal (String.singleton c) :: ·) (seamed_field name hint left right).symm

/-- Pieces one after the other are gathered into seamed segments. -/
theorem gather_append (front back : List Piece) :
    gather (front ++ back) = seamed (gather front) (gather back) := by
  induction front with
  | nil => rfl
  | cons piece rest ih =>
      cases piece with
      | char c => rw [List.cons_append, gather_char, ih, attach_seamed, gather_char]
      | field name hint => rw [List.cons_append, gather, ih, gather, seamed_field]

/-- What spells the pieces of two parts one after the other spells all of them. -/
theorem joined_append {front back : List Piece} {left right : List Char}
    (first : Joined Piece.Spelling front left) (second : Joined Piece.Spelling back right) :
    Joined Piece.Spelling (front ++ back) (left ++ right) := by
  obtain ⟨texts, spelled, rfl⟩ := first
  obtain ⟨others, later, rfl⟩ := second
  exact ⟨texts ++ others, List.rel_append spelled later, List.flatten_append⟩

/-- A template that is two templates one after the other has the seamed segments of both. -/
theorem parse_append {front back : String} {left right : List Segment}
    (first : parse front = .ok left) (second : parse back = .ok right) :
    parse (front ++ back) = .ok (seamed left right) := by
  obtain ⟨pieces, scanned, rfl⟩ := parse_eq_ok.mp first
  obtain ⟨others, later, rfl⟩ := parse_eq_ok.mp second
  have placeable : ∀ piece ∈ pieces ++ others, piece.Placeable :=
    List.forall_mem_append.mpr ⟨placeable_scan scanned, placeable_scan later⟩
  have joined := joined_append (joined_of_scan scanned) (joined_of_scan later)
  apply parse_eq_ok.mpr
  refine ⟨pieces ++ others, ?_, gather_append pieces others⟩
  rw [String.toList_append]
  exact scan_of_joined placeable joined 0

/-- What spells a piece ends in a closing brace or in the character that it spells. -/
theorem Piece.Spelling.exists_concat {piece : Piece} {text : List Char}
    (spelled : Piece.Spelling piece text) :
    ∃ before last, text = before ++ [last] ∧ (last = '}' ∨ piece = .char last) := by
  cases spelled with
  | char c =>
      unfold doubled
      split
      · exact ⟨[c], c, rfl, .inr rfl⟩
      · exact ⟨[], c, rfl, .inr rfl⟩
  | @field name hint _ spelled =>
      cases spelled with
      | colon => exact ⟨'{' :: name.toList ++ [':'], '}', by simp, .inl rfl⟩
      | plain =>
          cases hint with
          | none => exact ⟨'{' :: name.toList, '}', by simp [spell, placeholder], .inl rfl⟩
          | some hint =>
              exact ⟨'{' :: name.toList ++ ':' :: hint.raw.toList, '}',
                by simp [spell, placeholder], .inl rfl⟩

theorem eq_nil_of_joined_nil {pieces : List Piece} (joined : Joined Piece.Spelling pieces []) :
    pieces = [] := by
  cases pieces with
  | nil => rfl
  | cons piece rest =>
      obtain ⟨front, back, spelled, _, same⟩ := joined_cons_iff.mp joined
      obtain ⟨before, last, rfl, _⟩ := spelled.exists_concat
      simp at same

/-- A character at the end that is no brace is literal text behind a whole template. -/
theorem exists_of_joined_concat {pieces : List Piece} {front : List Char} {c : Char}
    (opens : c ≠ '{') (closes : c ≠ '}') (joined : Joined Piece.Spelling pieces (front ++ [c])) :
    ∃ others, pieces = others ++ [.char c] ∧ Joined Piece.Spelling others front := by
  induction pieces generalizing front with
  | nil => simp at joined
  | cons piece rest ih =>
      obtain ⟨first, back, spelled, later, same⟩ := joined_cons_iff.mp joined
      rcases back.eq_nil_or_concat' with rfl | ⟨before, last, rfl⟩
      · obtain rfl := eq_nil_of_joined_nil later
        rw [List.append_nil] at same
        subst same
        obtain ⟨before, last, cut, holds⟩ := spelled.exists_concat
        obtain ⟨_, final⟩ := List.append_inj' cut rfl
        obtain rfl := List.singleton_inj.mp final
        obtain rfl := holds.resolve_left closes
        have single := piece_spelling_char_iff.mp spelled
        obtain rfl : front = [] := by simpa [doubled, opens, closes] using single
        exact ⟨[], rfl, joined_nil_iff.mpr rfl⟩
      · rw [← List.append_assoc] at same
        obtain ⟨rfl, last⟩ := List.append_inj' same rfl
        obtain rfl := List.singleton_inj.mp last
        obtain ⟨others, rfl, left⟩ := ih later
        exact ⟨piece :: others, rfl, joined_cons_iff.mpr ⟨first, before, spelled, left, rfl⟩⟩

/-- Without the separator at its end a template is read as the same segments without it. -/
theorem exists_of_parse_separator {front : String} {segments : List Segment}
    (parsed : parse (front ++ "/") = .ok segments) :
    ∃ left, parse front = .ok left ∧ segments = seamed left [.literal "/"] := by
  obtain ⟨pieces, scanned, rfl⟩ := parse_eq_ok.mp parsed
  have joined := joined_of_scan scanned
  rw [begun, List.nil_append, String.toList_append] at joined
  obtain ⟨others, rfl, left⟩ := exists_of_joined_concat (by decide) (by decide) joined
  have placeable := (List.forall_mem_append.mp (placeable_scan scanned)).1
  exact ⟨gather others, parse_eq_ok.mpr ⟨others, scan_of_joined placeable left 0, rfl⟩,
    gather_append others _⟩

section Seamed

variable (left right : List Segment)

@[simp] theorem occurrences_seamed :
    occurrences (seamed left right) = occurrences left ++ occurrences right := by
  fun_induction seamed left right with
  | case1 => rfl
  | case2 => rfl
  | case3 segment left right _ ih => cases segment <;> simp [occurrences, ih]

/-- A field of the first part keeps the hint that it has there. -/
theorem firstHint_seamed {name : String} (member : name ∈ occurrences left) :
    firstHint name (seamed left right) = firstHint name left := by
  fun_induction seamed left right with
  | case1 => cases member
  | case2 => cases member
  | case3 segment left right _ ih =>
      cases segment with
      | literal text => exact ih member
      | field other hint =>
          by_cases same : other = name
          · simp [firstHint, same]
          · rw [firstHint, firstHint, if_neg same, if_neg same]
            exact ih (List.mem_of_ne_of_mem (Ne.symm same) member)

end Seamed

end Segment

namespace Template

open Segment

variable {pattern : String} {given : FieldMap}

/-- Only the failure of a name names the pattern. -/
theorem buildFrom_of_pattern (other : String) {segments : List Segment} {name : String}
    (built : buildFrom pattern given segments = .ok name) :
    buildFrom other given segments = .ok name := by
  induction segments generalizing name with
  | nil => exact built
  | cons segment rest ih =>
      cases segment with
      | literal text =>
          obtain ⟨others, later, same⟩ := buildFrom_literal_eq_ok.mp built
          exact buildFrom_literal_eq_ok.mpr ⟨others, ih later, same⟩
      | field name hint =>
          obtain ⟨value, others, held, later, same⟩ := buildFrom_field_eq_ok.mp built
          exact buildFrom_field_eq_ok.mpr ⟨value, others, held, ih later, same⟩

/-- Text in front of the first of two names stands in front of both. -/
theorem map_append_bind (text : String) (first second : Except Failure String) :
    (do let front ← first; let back ← second; return front ++ back).map (text ++ ·) =
      do let front ← first.map (text ++ ·); let back ← second; return front ++ back := by
  cases first with
  | error fault => rfl
  | ok front =>
      cases second with
      | error fault => rfl
      | ok back => exact congrArg Except.ok (String.append_assoc).symm

/-- The name of the whole is the name of the first part and then that of the second. -/
theorem buildFrom_seamed (pattern : String) (given : FieldMap) (left right : List Segment) :
    buildFrom pattern given (seamed left right) = do
      let front ← buildFrom pattern given left
      let back ← buildFrom pattern given right
      return front ++ back := by
  have empty (rest : Except Failure String) :
      (do let front ← buildFrom pattern given []; let back ← rest; return front ++ back) = rest := by
    cases rest with
    | error fault => rfl
    | ok back => exact congrArg Except.ok String.empty_append
  fun_induction seamed left right with
  | case1 right => rw [empty]
  | case2 text other right =>
      rw [buildFrom.eq_2 _ _ text [], ← map_append_bind, empty, buildFrom, buildFrom]
      cases buildFrom pattern given right with
      | error fault => rfl
      | ok name => exact congrArg Except.ok String.append_assoc
  | case3 segment left right _ ih =>
      cases segment with
      | literal text => rw [buildFrom, ih, buildFrom, map_append_bind]
      | field name hint =>
          rw [buildFrom, ih, buildFrom]
          cases given.get? name with
          | none => rfl
          | some value => exact map_append_bind value _ _

theorem buildFrom_seamed_eq_ok {left right : List Segment} {name : String} :
    buildFrom pattern given (seamed left right) = .ok name ↔
      ∃ front back, buildFrom pattern given left = .ok front ∧
        buildFrom pattern given right = .ok back ∧ front ++ back = name := by
  simp only [buildFrom_seamed, bind_eq_ok, pure, Except.pure, Except.ok.injEq, exists_and_left]

end Template

end PathCatalog
