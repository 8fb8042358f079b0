import Mathlib.Data.List.Chain
import Mathlib.Data.List.Forall2
import PathCatalog.Proofs.Template.Parsed
import PathCatalog.Proofs.Text.Split

namespace PathCatalog

/-- Some items one after the other, each spelled in one of the ways that it has. -/
def Joined {Item : Type} (spells : Item → List Char → Prop) (items : List Item)
    (text : List Char) : Prop :=
  ∃ texts, List.Forall₂ spells items texts ∧ texts.flatten = text

section Joining

variable {Item : Type} {spells : Item → List Char → Prop} {item : Item} {items : List Item}
  {text : List Char}

@[simp] theorem joined_nil_iff : Joined spells [] text ↔ text = [] := by
  simp [Joined, eq_comm]

theorem joined_cons_iff :
    Joined spells (item :: items) text ↔
      ∃ front back, spells item front ∧ Joined spells items back ∧ front ++ back = text := by
  constructor
  · intro joined
    obtain ⟨texts, spelled, rfl⟩ := joined
    obtain ⟨front, others, first, later, rfl⟩ := List.forall₂_cons_left_iff.mp spelled
    exact ⟨front, others.flatten, first, ⟨others, later, rfl⟩, rfl⟩
  · intro holds
    obtain ⟨front, _, first, ⟨others, later, rfl⟩, rfl⟩ := holds
    exact ⟨front :: others, .cons first later, rfl⟩

end Joining

namespace Segment

/-- Whether a segment is literal text. -/
def isLiteral : Segment → Bool
  | .literal _ => true
  | .field _ _ => false

/-- How a segment may be written: a placeholder without a hint may keep the colon. -/
inductive Spelling : Segment → List Char → Prop where
  | plain (segment : Segment) : Spelling segment segment.spell.toList
  | colon (name : String) : Spelling (.field name none) ('{' :: name.toList ++ [':', '}'])

/-- Segments as they are read: no empty or neighbouring literals, and placeholders with a free word
and a readable hint. -/
structure Canonical (segments : List Segment) : Prop where
  filled : Segment.literal "" ∉ segments
  apart : segments.IsChain fun left right => ¬ (left.isLiteral = true ∧ right.isLiteral = true)
  placeable : ∀ name hint, Segment.field name hint ∈ segments → Placeable name hint

/-- A character of literal text as it is written: a brace is doubled. -/
def doubled (c : Char) : List Char :=
  if c = '{' || c = '}' then [c, c] else [c]

/-- How a piece may be written. -/
inductive Piece.Spelling : Piece → List Char → Prop where
  | char (c : Char) : Spelling (.char c) (doubled c)
  | field {name : String} {hint : Option Hint} {text : List Char}
      (spelled : Segment.Spelling (.field name hint) text) : Spelling (.field name hint) text

theorem spelling_literal_iff {literal : String} {text : List Char} :
    Spelling (.literal literal) text ↔ text = literal.toList.flatMap doubled := by
  have spelled : (Segment.literal literal).spell.toList = literal.toList.flatMap doubled := by
    simp only [spell, escaped, String.toList_ofList]
    rfl
  constructor
  · intro spelling
    cases spelling
    exact spelled
  · intro same
    rw [same, ← spelled]
    exact .plain _

theorem piece_spelling_char_iff {c : Char} {text : List Char} :
    Piece.Spelling (.char c) text ↔ text = doubled c := by
  constructor
  · intro spelling
    cases spelling
    rfl
  · intro same
    rw [same]
    exact .char c

theorem piece_spelling_field_iff {name : String} {hint : Option Hint} {text : List Char} :
    Piece.Spelling (.field name hint) text ↔ Spelling (.field name hint) text := by
  constructor
  · intro spelling
    cases spelling with
    | field spelled => exact spelled
  · exact .field

theorem joined_literal_iff {literal : String} {rest : List Segment} {text : List Char} :
    Joined Spelling (.literal literal :: rest) text ↔
      ∃ back, Joined Spelling rest back ∧ literal.toList.flatMap doubled ++ back = text := by
  simp [joined_cons_iff, spelling_literal_iff]

theorem joined_char_iff {c : Char} {pieces : List Piece} {text : List Char} :
    Joined Piece.Spelling (.char c :: pieces) text ↔
      ∃ back, Joined Piece.Spelling pieces back ∧ doubled c ++ back = text := by
  simp [joined_cons_iff, piece_spelling_char_iff]

/-- Gathering characters into literals does not change what is written. -/
theorem joined_gather_iff {pieces : List Piece} {text : List Char} :
    Joined Spelling (gather pieces) text ↔ Joined Piece.Spelling pieces text := by
  fun_induction gather pieces generalizing text with
  | case1 => simp
  | case2 name hint rest ih =>
      simp only [joined_cons_iff, piece_spelling_field_iff, ih]
  | case3 c rest literal more gathered ih =>
      rw [gathered] at ih
      simp only [joined_char_iff, ← ih, joined_literal_iff]
      simp
  | case4 c rest _ ih =>
      simp [joined_char_iff, joined_literal_iff, ih]

theorem literal_ne_empty (c : Char) (text : String) : String.singleton c ++ text ≠ "" := by
  intro same
  have chars := congrArg String.toList same
  simp at chars

theorem filled_gather (pieces : List Piece) : Segment.literal "" ∉ gather pieces := by
  fun_induction gather pieces with
  | case1 => simp
  | case2 name hint rest ih => simpa using ih
  | case3 c rest text more gathered ih =>
      rw [gathered] at ih
      simp only [List.mem_cons, Segment.literal.injEq, not_or] at ih ⊢
      exact ⟨(literal_ne_empty c text).symm, ih.2⟩
  | case4 c rest _ ih =>
      simp only [List.mem_cons, Segment.literal.injEq, not_or]
      exact ⟨by simp [String.ext_iff], ih⟩

/-- Two literals never follow each other, because a character joins the literal behind it. -/
theorem apart_gather (pieces : List Piece) :
    (gather pieces).IsChain fun left right => ¬ (left.isLiteral = true ∧ right.isLiteral = true) := by
  fun_induction gather pieces with
  | case1 => exact .nil
  | case2 name hint rest ih => exact List.isChain_cons.mpr ⟨by simp [isLiteral], ih⟩
  | case3 c rest text more gathered ih =>
      rw [gathered, List.isChain_cons] at ih
      exact List.isChain_cons.mpr ih
  | case4 c rest alone ih =>
      refine List.isChain_cons.mpr ⟨?_, ih⟩
      intro next first holds
      cases next with
      | field name hint => simp [isLiteral] at holds
      | literal text =>
          obtain ⟨more, gathered⟩ := List.head?_eq_some_iff.mp first
          exact alone text more gathered

/-- Gathered segments are canonical when the placeholders among the pieces can be written. -/
theorem canonical_gather {pieces : List Piece} (placeable : ∀ piece ∈ pieces, piece.Placeable) :
    Canonical (gather pieces) where
  filled := filled_gather pieces
  apart := apart_gather pieces
  placeable _ _ member := placeable _ (mem_of_field_mem_gather member)

/-- The pieces of some segments: literal text character by character. -/
def pieces : List Segment → List Piece
  | [] => []
  | .literal text :: rest => text.toList.map .char ++ pieces rest
  | .field name hint :: rest => .field name hint :: pieces rest

/-- Characters in front of no literal make a literal of their own. -/
theorem gather_chars {chars : List Char} (some : chars ≠ []) {others : List Piece}
    (alone : ∀ text more, gather others ≠ .literal text :: more) :
    gather (chars.map .char ++ others) = .literal (String.ofList chars) :: gather others := by
  induction chars with
  | nil => exact absurd rfl some
  | cons c chars ih =>
      cases chars with
      | nil =>
          have single : String.ofList [c] = String.singleton c := rfl
          rw [single, List.map_singleton, List.singleton_append, gather]
          split
          · rename_i text more gathered
            exact absurd gathered (alone text more)
          · rfl
      | cons d chars =>
          rw [List.map_cons, List.cons_append, gather, ih (by simp)]
          simp [String.ofList_cons]

/-- Canonical segments are what their pieces are gathered into. -/
theorem gather_pieces {segments : List Segment} (filled : Segment.literal "" ∉ segments)
    (apart : segments.IsChain fun left right =>
      ¬ (left.isLiteral = true ∧ right.isLiteral = true)) :
    gather (pieces segments) = segments := by
  induction segments with
  | nil => rfl
  | cons segment rest ih =>
      rw [List.mem_cons, not_or] at filled
      rw [List.isChain_cons] at apart
      have later := ih filled.2 apart.2
      cases segment with
      | field name hint => rw [pieces, gather, later]
      | literal text =>
          have some : text.toList ≠ [] := by
            intro empty
            have same : "" = text := String.toList_injective empty.symm
            exact filled.1 (congrArg Segment.literal same)
          have alone : ∀ next more, gather (pieces rest) ≠ .literal next :: more := by
            intro next more gathered
            rw [later] at gathered
            exact apart.1 (.literal next) (by simp [gathered]) ⟨rfl, rfl⟩
          rw [pieces, gather_chars some alone, later, String.ofList_toList]

/-- A read hint is spelled by its text, and no hint by the empty text. -/
theorem hint_of_readHint {name spec : String} {hint : Option Hint}
    (made : readHint name spec = .ok hint) :
    (hint = none ∧ spec = "") ∨ ∃ known, hint = some known ∧ known.raw = spec ∧ spec ≠ "" := by
  simp only [readHint] at made
  split at made
  · rename_i empty
    cases made
    exact .inl ⟨rfl, by simpa using empty⟩
  · rename_i filled
    split at made
    · rename_i known read
      cases made
      exact .inr ⟨known, rfl, (Hint.width_of_parse? read).1, by simpa using filled⟩
    · cases made

theorem hint_of_readField {name spec : String} {piece : Piece}
    (made : readField name spec = .ok piece) :
    ∃ hint, piece = .field name hint ∧ readHint name spec = .ok hint := by
  simp only [readField] at made
  split at made
  · cases made
  split at made
  · cases made
  split at made
  · cases made
  obtain ⟨hint, read, rfl⟩ := map_eq_ok.mp made
  exact ⟨hint, rfl, read⟩

/-- What stands between the braces spells the placeholder that it is read as. -/
theorem spelling_of_readPlaceholder {inner : List Char} {piece : Piece}
    (made : readPlaceholder inner = .ok piece) :
    Piece.Spelling piece ('{' :: inner ++ ['}']) := by
  simp only [readPlaceholder] at made
  split at made
  · rename_i name spec cut
    obtain ⟨_, rfl⟩ := Text.cut?_eq_some_iff.mp cut
    obtain ⟨hint, rfl, read⟩ := hint_of_readField made
    apply Piece.Spelling.field
    rcases hint_of_readHint read with ⟨rfl, empty⟩ | ⟨known, rfl, raw, _⟩
    · obtain rfl : spec = [] := by simpa using empty
      have spelled := Spelling.colon (String.ofList name)
      simpa using spelled
    · have spelled := Spelling.plain (.field (String.ofList name) (some known))
      simpa [spell, placeholder, raw] using spelled
  · obtain ⟨hint, rfl, read⟩ := hint_of_readField made
    apply Piece.Spelling.field
    rcases hint_of_readHint read with ⟨rfl, _⟩ | ⟨_, _, _, filled⟩
    · have spelled := Spelling.plain (.field (String.ofList inner) none)
      simpa [spell, placeholder] using spelled
    · exact absurd rfl filled

/-- What has been scanned of an opened placeholder. -/
def begun : Option (Nat × List Char) → List Char
  | none => []
  | some (_, inner) => '{' :: inner.reverse

/-- A scanned text spells its pieces, together with what was scanned of an opened placeholder. -/
theorem joined_of_scan {text : List Char} {offset : Nat} {opened : Option (Nat × List Char)}
    {pieces : List Piece} (scanned : scan offset opened text = .ok pieces) :
    Joined Piece.Spelling pieces (begun opened ++ text) := by
  fun_induction scan offset opened text generalizing pieces with
  | case1 =>
      cases scanned
      exact joined_nil_iff.mpr rfl
  | case2 => cases scanned
  | case3 offset rest start inner ih =>
      obtain ⟨piece, read, scanned⟩ := bind_eq_ok.mp scanned
      obtain ⟨others, later, same⟩ := bind_eq_ok.mp scanned
      cases same
      refine joined_cons_iff.mpr ⟨_, rest, spelling_of_readPlaceholder read, ih later, ?_⟩
      simp [begun]
  | case4 => cases scanned
  | case5 offset c rest start inner _ _ ih =>
      have joined := ih scanned
      simpa [begun] using joined
  | case6 offset more ih =>
      obtain ⟨others, later, rfl⟩ := map_eq_ok.mp scanned
      exact joined_char_iff.mpr ⟨more, ih later, rfl⟩
  | case7 offset others _ ih => exact ih scanned
  | case8 offset more _ ih =>
      obtain ⟨others, later, rfl⟩ := map_eq_ok.mp scanned
      exact joined_char_iff.mpr ⟨more, ih later, rfl⟩
  | case9 => cases scanned
  | case10 offset c rest opens closes ih =>
      obtain ⟨others, later, rfl⟩ := map_eq_ok.mp scanned
      refine joined_char_iff.mpr ⟨rest, ih later, ?_⟩
      simp [begun, doubled, opens, closes]

theorem not_mem_of_word {text : List Char} (word : ∀ c ∈ text, CharClass.isWordChar c = true)
    {c : Char} (other : CharClass.isWordChar c = false) : c ∉ text := by
  intro member
  rw [word c member] at other
  cases other

theorem Placeable.readField_eq {name : String} {hint : Option Hint} (placeable : Placeable name hint)
    (spec : String) : readField name spec = (readHint name spec).map (.field name) := by
  simp [readField, placeable.named, placeable.word, placeable.free]

/-- A placeholder that can be written is read from what may stand between its braces. -/
theorem Placeable.readPlaceholder_eq {name : String} {hint : Option Hint} {text : List Char}
    (placeable : Placeable name hint) (spelled : Spelling (.field name hint) text) :
    ∃ inner, text = '{' :: inner ++ ['}'] ∧ '{' ∉ inner ∧ '}' ∉ inner ∧
      readPlaceholder inner = .ok (.field name hint) := by
  have word : ∀ c ∈ name.toList, CharClass.isWordChar c = true :=
    List.all_eq_true.mp placeable.word
  have colon : ':' ∉ name.toList := not_mem_of_word word (by decide)
  cases spelled with
  | colon =>
      refine ⟨name.toList ++ [':'], by simp, ?_, ?_, ?_⟩
      · simpa using not_mem_of_word word (by decide)
      · simpa using not_mem_of_word word (by decide)
      · simp only [readPlaceholder, Text.cut?_append colon, String.ofList_toList]
        exact placeable.readField_eq ""
  | plain =>
      cases hint with
      | none =>
          refine ⟨name.toList, by simp [spell, placeholder], ?_, ?_, ?_⟩
          · exact not_mem_of_word word (by decide)
          · exact not_mem_of_word word (by decide)
          · simp only [readPlaceholder, Text.cut?_eq_none_iff.mpr colon, String.ofList_toList]
            exact placeable.readField_eq ""
      | some known =>
          obtain ⟨filled, read⟩ := placeable.hinted known rfl
          have others := Hint.word_of_parse? read
          refine ⟨name.toList ++ ':' :: known.raw.toList, by simp [spell, placeholder], ?_, ?_, ?_⟩
          · simpa using ⟨not_mem_of_word word (by decide), not_mem_of_word others (by decide)⟩
          · simpa using ⟨not_mem_of_word word (by decide), not_mem_of_word others (by decide)⟩
          · simp only [readPlaceholder, Text.cut?_append colon, String.ofList_toList,
              placeable.readField_eq]
            simp [readHint, filled, read, Except.map]

section Reading

variable {after : List Char} {pieces : List Piece}

/-- A character that is no brace stands for itself. -/
theorem scan_plain {c : Char} (opens : c ≠ '{') (closes : c ≠ '}') (offset : Nat) :
    scan offset none (c :: after) = (scan (offset + c.utf8Size) none after).map (.char c :: ·) := by
  rw [scan.eq_def]
  simp [opens, closes]

/-- A single opening brace starts a placeholder. -/
theorem scan_opening (single : ∀ more, after ≠ '{' :: more) (offset : Nat) :
    scan offset none ('{' :: after) = scan (offset + 1) (some (offset, [])) after := by
  rw [scan.eq_def]
  simp

/-- Inside a placeholder everything up to the closing brace belongs to it. -/
theorem scan_opened {inner held : List Char} {piece : Piece} (opening : '{' ∉ inner)
    (closing : '}' ∉ inner) (read : readPlaceholder (held.reverse ++ inner) = .ok piece)
    (later : ∀ offset, scan offset none after = .ok pieces) (start offset : Nat) :
    scan offset (some (start, held)) (inner ++ '}' :: after) = .ok (piece :: pieces) := by
  induction inner generalizing held offset with
  | nil =>
      rw [List.append_nil] at read
      simp [scan, read, later, bind, Except.bind, pure, Except.pure]
  | cons c inner ih =>
      rw [List.mem_cons, not_or] at opening closing
      have more : readPlaceholder ((c :: held).reverse ++ inner) = .ok piece := by
        simpa using read
      rw [List.cons_append, scan, if_neg (Ne.symm closing.1), if_neg (Ne.symm opening.1)]
      exact ih opening.2 closing.2 more _

theorem scan_field {name : String} {hint : Option Hint} {front : List Char}
    (placeable : Placeable name hint) (spelled : Spelling (.field name hint) front)
    (later : ∀ offset, scan offset none after = .ok pieces) (offset : Nat) :
    scan offset none (front ++ after) = .ok (.field name hint :: pieces) := by
  obtain ⟨inner, rfl, opening, closing, read⟩ := placeable.readPlaceholder_eq spelled
  -- the brace that opens is not doubled: a name or the closing brace follows it
  have single : ∀ more, inner ++ '}' :: after ≠ '{' :: more := by
    intro more same
    cases inner with
    | nil => simp at same
    | cons c inner => simp_all
  have whole : '{' :: inner ++ ['}'] ++ after = '{' :: (inner ++ '}' :: after) := by simp
  rw [whole, scan_opening single]
  exact scan_opened opening closing (by simpa using read) later offset _

theorem scan_char (c : Char) (later : ∀ offset, scan offset none after = .ok pieces)
    (offset : Nat) : scan offset none (doubled c ++ after) = .ok (.char c :: pieces) := by
  by_cases opens : c = '{'
  · subst opens
    simp [doubled, scan, later, Except.map]
  · by_cases closes : c = '}'
    · subst closes
      simp [doubled, scan, later, Except.map]
    · have single : doubled c = [c] := by simp [doubled, opens, closes]
      rw [single, List.singleton_append, scan_plain opens closes, later]
      rfl

/-- Pieces that are spelled by a text are scanned from it, wherever it starts. -/
theorem scan_of_joined {text : List Char} (placeable : ∀ piece ∈ pieces, piece.Placeable)
    (joined : Joined Piece.Spelling pieces text) (offset : Nat) :
    scan offset none text = .ok pieces := by
  induction pieces generalizing text offset with
  | nil =>
      rw [joined_nil_iff.mp joined]
      rfl
  | cons piece pieces ih =>
      obtain ⟨front, back, spelled, others, rfl⟩ := joined_cons_iff.mp joined
      have later (offset : Nat) : scan offset none back = .ok pieces :=
        ih (fun other member => placeable other (List.mem_cons_of_mem _ member)) others offset
      cases spelled with
      | char c => exact scan_char c later offset
      | field spelled => exact scan_field (placeable _ List.mem_cons_self) spelled later offset

end Reading

theorem placeable_pieces {segments : List Segment}
    (placeable : ∀ name hint, Segment.field name hint ∈ segments → Placeable name hint) :
    ∀ piece ∈ pieces segments, piece.Placeable := by
  induction segments with
  | nil => simp [pieces]
  | cons segment rest ih =>
      have later := ih fun name hint member => placeable name hint (List.mem_cons_of_mem _ member)
      intro piece member
      cases segment with
      | literal text =>
          rcases List.mem_append.mp member with char | member
          · obtain ⟨c, _, rfl⟩ := List.mem_map.mp char
            trivial
          · exact later piece member
      | field name hint =>
          rcases List.mem_cons.mp member with rfl | member
          · exact placeable name hint List.mem_cons_self
          · exact later piece member

theorem parse_eq_ok {template : String} {segments : List Segment} :
    parse template = .ok segments ↔
      ∃ pieces, scan 0 none template.toList = .ok pieces ∧ gather pieces = segments := by
  rw [parse]
  split <;> simp_all

/-- The segments of a template are canonical. -/
theorem canonical_of_parse {template : String} {segments : List Segment}
    (parsed : parse template = .ok segments) : Canonical segments := by
  obtain ⟨pieces, scanned, rfl⟩ := parse_eq_ok.mp parsed
  exact canonical_gather (placeable_scan scanned)

/-- A text is read as some segments exactly when these are canonical and the text is their
spelling. -/
theorem parse_eq_ok_iff_spelled {template : String} {segments : List Segment} :
    parse template = .ok segments ↔
      Canonical segments ∧ Joined Spelling segments template.toList := by
  constructor
  · intro parsed
    refine ⟨canonical_of_parse parsed, ?_⟩
    obtain ⟨pieces, scanned, rfl⟩ := parse_eq_ok.mp parsed
    exact joined_gather_iff.mpr (joined_of_scan scanned)
  · intro holds
    obtain ⟨canonical, joined⟩ := holds
    have gathered := gather_pieces canonical.filled canonical.apart
    rw [← gathered, joined_gather_iff] at joined
    have scanned := scan_of_joined (placeable_pieces canonical.placeable) joined 0
    exact parse_eq_ok.mpr ⟨_, scanned, gathered⟩

/-- Of three braces in a row the first two are one of literal text. -/
example : parse "\x7b\x7b\x7ba\x7d\x7d\x7d" =
    .ok [.literal "\x7b", .field "a" none, .literal "\x7d"] := by
  decide +kernel

end Segment

end PathCatalog
