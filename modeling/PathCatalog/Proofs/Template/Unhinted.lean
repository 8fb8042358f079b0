import PathCatalog.Proofs.Matching.Captures
import PathCatalog.Proofs.Template.Lacking
import PathCatalog.Proofs.Template.Seam

namespace PathCatalog

namespace Segment

variable {segments : List Segment}

@[simp] theorem isLiteral_withoutHint (segment : Segment) :
    segment.withoutHint.isLiteral = segment.isLiteral := by
  cases segment <;> rfl

theorem withoutHint_eq_literal {segment : Segment} {text : String} :
    segment.withoutHint = .literal text ↔ segment = .literal text := by
  cases segment <;> simp [withoutHint]

theorem withoutHint_eq_field {segment : Segment} {name : String} {hint : Option Hint}
    (same : segment.withoutHint = .field name hint) :
    hint = none ∧ ∃ known, segment = .field name known := by
  cases segment with
  | literal text => cases same
  | field other known =>
      cases same
      exact ⟨rfl, known, rfl⟩

/-- Leaving hints out takes no name from a placeholder and brings no literals together. -/
theorem Canonical.withoutHints (canonical : Canonical segments) :
    Canonical (segments.map withoutHint) where
  filled := by
    intro member
    obtain ⟨segment, found, same⟩ := List.mem_map.mp member
    rw [withoutHint_eq_literal.mp same] at found
    exact canonical.filled found
  apart := by
    simpa [List.isChain_map] using canonical.apart
  placeable := by
    intro name hint member
    obtain ⟨segment, found, same⟩ := List.mem_map.mp member
    obtain ⟨rfl, known, rfl⟩ := withoutHint_eq_field same
    have placeable := canonical.placeable name known found
    exact ⟨placeable.named, placeable.word, placeable.free, nofun⟩

/-- Canonical segments are read from whatever spells them. -/
theorem Canonical.parse_eq_ok {text : String} (canonical : Canonical segments)
    (joined : Joined Spelling segments text.toList) : parse text = .ok segments := by
  have gathered := gather_pieces canonical.filled canonical.apart
  rw [← gathered, joined_gather_iff] at joined
  have scanned := scan_of_joined (placeable_pieces canonical.placeable) joined 0
  exact Segment.parse_eq_ok.mpr ⟨_, scanned, gathered⟩

/-- Segments written down one after the other are spelled. -/
theorem joined_spell (segments : List Segment) :
    Joined Spelling segments (String.join (segments.map spell)).toList := by
  induction segments with
  | nil => exact joined_nil_iff.mpr rfl
  | cons segment rest ih =>
      refine joined_cons_iff.mpr ⟨_, _, .plain segment, ih, ?_⟩
      rw [List.map_cons, String.join_cons, String.toList_append]

theorem construction_eq (segments : List Segment) :
    construction segments = String.join ((segments.map withoutHint).map spell) := by
  rw [construction, List.map_map]
  rfl

/-- The text without hints is read as the segments without hints. -/
theorem parse_construction {pattern : String} (parsed : parse pattern = .ok segments) :
    parse (construction segments) = .ok (segments.map withoutHint) := by
  apply (canonical_of_parse parsed).withoutHints.parse_eq_ok
  rw [construction_eq]
  exact joined_spell _

theorem namesAfter_withoutHints (seen : List String) (segments : List Segment) :
    namesAfter seen (segments.map withoutHint) = namesAfter seen segments := by
  fun_induction namesAfter seen segments with
  | case1 => rfl
  | case2 seen text rest ih => exact ih
  | case3 seen name hint rest known ih =>
      rw [← ih]
      exact if_pos known
  | case4 seen name hint rest fresh ih =>
      rw [← ih]
      exact if_neg fresh

theorem firstHint_withoutHints (name : String) (segments : List Segment) :
    firstHint name (segments.map withoutHint) = none := by
  induction segments with
  | nil => rfl
  | cons segment rest ih =>
      cases segment with
      | literal text => exact ih
      | field other hint =>
          rw [List.map_cons, withoutHint, firstHint, ih, ite_self]

end Segment

open Segment

/-- What any shape admits, a field without a hint admits. -/
theorem Shape.admits_of_admits {shape : Shape} {value : List Char}
    (admitted : shape.admits value = true) : (Shape.ofHint none).admits value = true := by
  rw [admits, Bool.and_eq_true, Bool.and_eq_true] at admitted
  rw [admits, admitted.1.1]
  simp [ofHint, CharClass.contains]

namespace Template

/-- The template without its hints. -/
def stripped (template : Template) : Template where
  pattern := template.construction
  segments := template.segments.map withoutHint
  parsed := parse_construction template.parsed

variable (template : Template)

@[simp] theorem fields_stripped : template.stripped.fields = template.fields :=
  namesAfter_withoutHints [] template.segments

/-- Names do not depend on hints. -/
theorem buildFrom_withoutHints (pattern : String) (given : FieldMap) (segments : List Segment) :
    buildFrom pattern given (segments.map withoutHint) = buildFrom pattern given segments := by
  induction segments with
  | nil => rfl
  | cons segment rest ih =>
      cases segment with
      | literal text => rw [List.map_cons, withoutHint, buildFrom, ih, buildFrom]
      | field name hint => rw [List.map_cons, withoutHint, buildFrom, ih, buildFrom]

variable {template}

theorem build_stripped {given : FieldMap} {name : String} (built : template.build given = .ok name) :
    template.stripped.build given = .ok name := by
  rw [build, stripped, buildFrom_withoutHints]
  exact buildFrom_of_pattern _ built

theorem shapes_stripped :
    template.stripped.shapes = template.shapes.map fun _ => Shape.ofHint none := by
  rw [shapes, fields_stripped, shapes, List.map_map]
  exact List.map_congr_left fun name _ =>
    congrArg Shape.ofHint (firstHint_withoutHints name template.segments)

/-- What fits a candidate fits it without hints, where each field accepts any text. -/
theorem Fits.stripped {candidate : String} {values : List String}
    (fits : template.Fits candidate values) : template.stripped.Fits candidate values where
  complete := by
    rw [fields_stripped]
    exact fits.complete
  admitted := by
    intro pair member
    rw [shapes_stripped, List.zip_map_left] at member
    obtain ⟨hinted, found, rfl⟩ := List.mem_map.mp member
    exact Shape.admits_of_admits (fits.admitted hinted found)
  spelled := by
    rw [assign, fields_stripped]
    exact build_stripped fits.spelled

/-- Braces of literal text stay doubled, also beside a placeholder. -/
example : stripHints "\x7b\x7b{run:2d}\x7d\x7d_{run:4d}" =
    .ok "\x7b\x7b{run}\x7d\x7d_{run}" := by
  decide +kernel

end Template

end PathCatalog
