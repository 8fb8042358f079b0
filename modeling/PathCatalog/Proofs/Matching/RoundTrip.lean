import PathCatalog.Proofs.Matching.Captures
import PathCatalog.Proofs.Template.Spelling

namespace PathCatalog

namespace Segment

/-- The text of some segments with a value at every placeholder. -/
def render (value : String → List Char) : List Segment → List Char
  | [] => []
  | .literal text :: rest => text.toList ++ render value rest
  | .field name _ :: rest => value name ++ render value rest

/-- The maximal runs of neighbouring placeholders, by their fields; literal text ends a run. -/
def runs : List Segment → List (List String)
  | [] => [[]]
  | .literal _ :: rest => [] :: runs rest
  | .field name _ :: rest => (runs rest).modifyHead (name :: ·)

/-- Every literal has some text, and all its characters are marks. -/
def Marked (marks : Char → Bool) (segments : List Segment) : Prop :=
  ∀ text, Segment.literal text ∈ segments → text ≠ "" ∧ ∀ c ∈ text.toList, marks c = true

/-- The values at the placeholders hold no mark. -/
def Clean (marks : Char → Bool) (value : String → List Char) (segments : List Segment) : Prop :=
  ∀ name ∈ occurrences segments, ∀ c ∈ value name, marks c = false

variable {marks : Char → Bool} {value left right : String → List Char} {segments rest : List Segment}
  {name : String} {hint : Option Hint}

theorem clean_field_iff :
    Clean marks value (.field name hint :: rest) ↔
      (∀ c ∈ value name, marks c = false) ∧ Clean marks value rest :=
  List.forall_mem_cons

theorem Marked.tail {segment : Segment} (marked : Marked marks (segment :: rest)) :
    Marked marks rest :=
  fun text member => marked text (List.mem_cons_of_mem _ member)

theorem runs_ne_nil (segments : List Segment) : runs segments ≠ [] := by
  induction segments with
  | nil => simp [runs]
  | cons segment rest ih =>
      cases segment with
      | literal text => simp [runs]
      | field name hint => simpa [runs] using ih

/-- The runs hold every placeholder once, in order. -/
theorem flatten_runs (segments : List Segment) : (runs segments).flatten = occurrences segments := by
  induction segments with
  | nil => rfl
  | cons segment rest ih =>
      cases segment with
      | literal text => simpa [runs, occurrences] using ih
      | field name hint =>
          obtain ⟨first, others, follows⟩ := List.exists_cons_of_ne_nil (runs_ne_nil rest)
          rw [follows] at ih
          simp [runs, occurrences, follows, ← ih]

theorem countP_literalText_le (marks : Char → Bool) (value : String → List Char)
    (segments : List Segment) :
    (literalText segments).countP marks ≤ (render value segments).countP marks := by
  induction segments with
  | nil => simp [literalText, render]
  | cons segment rest ih =>
      cases segment <;> simp only [literalText, render, List.countP_append] <;> omega

/-- Values hold no mark when all marks of the text are those of the literal text. -/
theorem clean_iff_countP :
    Clean marks value segments ↔
      (render value segments).countP marks = (literalText segments).countP marks := by
  induction segments with
  | nil => simp [Clean, occurrences, render, literalText]
  | cons segment rest ih =>
      cases segment with
      | literal text =>
          have same : Clean marks value (.literal text :: rest) ↔ Clean marks value rest := Iff.rfl
          rw [same, ih]
          simp only [render, literalText, List.countP_append]
          omega
      | field name hint =>
          have least := countP_literalText_le marks value rest
          have unmarked : (∀ c ∈ value name, marks c = false) ↔ (value name).countP marks = 0 := by
            simp [List.countP_eq_zero]
          rw [clean_field_iff, ih, unmarked]
          simp only [render, literalText, List.countP_append]
          omega

/-- What one clean choice of values renders is rendered by clean values only. -/
theorem Clean.of_render_eq (clean : Clean marks left segments)
    (same : render left segments = render right segments) : Clean marks right segments := by
  rw [clean_iff_countP] at clean ⊢
  rw [← same, clean]

/-- The first run renders what stands before the first mark. -/
theorem takeWhile_render (marked : Marked marks segments) (clean : Clean marks value segments)
    {first : List String} {others : List (List String)} (begins : runs segments = first :: others) :
    (render value segments).takeWhile (fun c => !marks c) = first.flatMap value := by
  induction segments generalizing first others with
  | nil =>
      obtain ⟨rfl, -⟩ : [] = first ∧ [] = others := by simpa [runs] using begins
      rfl
  | cons segment rest ih =>
      cases segment with
      | literal text =>
          obtain ⟨rfl, -⟩ : [] = first ∧ runs rest = others := by simpa [runs] using begins
          obtain ⟨some, all⟩ := marked text List.mem_cons_self
          obtain ⟨c, chars, split⟩ : ∃ c chars, text.toList = c :: chars := by
            apply List.exists_cons_of_ne_nil
            simpa using some
          have mark : marks c = true := all c (by simp [split])
          simp [render, split, mark]
      | field name hint =>
          obtain ⟨next, later, follows⟩ := List.exists_cons_of_ne_nil (runs_ne_nil rest)
          obtain ⟨rfl, -⟩ : name :: next = first ∧ later = others := by
            simpa [runs, follows] using begins
          obtain ⟨here, behind⟩ := clean_field_iff.mp clean
          have before : ∀ c ∈ value name, (!marks c) = true := by simpa using here
          rw [render, List.takeWhile_append_of_pos before, ih marked.tail behind follows,
            List.flatMap_cons]

/-- Where the lengths of all other values of the first run are known, so is that of the first one. -/
theorem length_eq_of_render_eq (marked : Marked marks segments) (clean : Clean marks left segments)
    (others : Clean marks right segments) (same : render left segments = render right segments)
    {first : List String} {more : List (List String)} (begins : runs segments = (name :: first) :: more)
    (sized : ∀ other ∈ first, (left other).length = (right other).length) :
    (left name).length = (right name).length := by
  have run := takeWhile_render marked clean begins
  rw [same, takeWhile_render marked others begins] at run
  have total := congrArg List.length run
  have equal : (first.flatMap left).length = (first.flatMap right).length := by
    rw [List.length_flatMap, List.length_flatMap, List.map_congr_left sized]
  simp only [List.flatMap_cons, List.length_append] at total
  omega

/-- With at most one value of the first run that may differ in length, its first one does not. -/
theorem length_eq_of_run {loose : String → Bool} (marked : Marked marks segments)
    (clean : Clean marks left segments) (others : Clean marks right segments)
    (same : render left segments = render right segments)
    {first : List String} {more : List (List String)} (begins : runs segments = (name :: first) :: more)
    (single : (name :: first).countP loose ≤ 1)
    (sized : ∀ other ∈ name :: first, loose other = false →
      (left other).length = (right other).length) :
    (left name).length = (right name).length := by
  cases free : loose name with
  | false => exact sized name List.mem_cons_self free
  | true =>
      rw [List.countP_cons_of_pos free] at single
      have fixed : first.countP loose = 0 := by omega
      refine length_eq_of_render_eq marked clean others same begins fun other member => ?_
      apply sized other (List.mem_cons_of_mem _ member)
      simpa using List.countP_eq_zero.mp fixed other member

/-- Values without marks that render the same text are the same, when no run of placeholders holds
two of open length. -/
theorem value_eq_of_render_eq {loose : String → Bool} (marked : Marked marks segments)
    (clean : Clean marks left segments) (others : Clean marks right segments)
    (rigid : ∀ run ∈ runs segments, run.countP loose ≤ 1)
    (sized : ∀ name ∈ occurrences segments, loose name = false →
      (left name).length = (right name).length)
    (same : render left segments = render right segments) :
    ∀ name ∈ occurrences segments, left name = right name := by
  induction segments with
  | nil => simp [occurrences]
  | cons segment rest ih =>
      cases segment with
      | literal text =>
          have later : ∀ run ∈ runs rest, run.countP loose ≤ 1 := fun run member =>
            rigid run (List.mem_cons_of_mem _ member)
          exact ih marked.tail clean others later sized (List.append_cancel_left same)
      | field name hint =>
          obtain ⟨first, more, follows⟩ := List.exists_cons_of_ne_nil (runs_ne_nil rest)
          have whole : runs (.field name hint :: rest) = (name :: first) :: more := by
            simp [runs, follows]
          rw [whole, List.forall_mem_cons] at rigid
          have lengths : (left name).length = (right name).length := by
            refine length_eq_of_run marked clean others same whole rigid.1 fun other member => ?_
            apply sized other
            rw [← flatten_runs, whole]
            exact List.mem_flatten_of_mem List.mem_cons_self member
          obtain ⟨here, behind⟩ := List.append_inj same lengths
          rw [occurrences, List.forall_mem_cons] at sized ⊢
          refine ⟨here, ih marked.tail (clean_field_iff.mp clean).2 (clean_field_iff.mp others).2
            ?_ sized.2 behind⟩
          have fewer : first.countP loose ≤ (name :: first).countP loose :=
            (List.sublist_cons_self name first).countP_le
          rw [follows, List.forall_mem_cons]
          exact ⟨fewer.trans rigid.1, rigid.2⟩

theorem mem_literalText {text : String} {c : Char} (member : Segment.literal text ∈ segments)
    (stands : c ∈ text.toList) : c ∈ literalText segments := by
  induction segments with
  | nil => cases member
  | cons segment rest ih =>
      cases segment with
      | literal other =>
          rcases List.mem_cons.mp member with same | later
          · cases same
            exact List.mem_append_left _ stands
          · exact List.mem_append_right _ (ih later)
      | field name hint =>
          rcases List.mem_cons.mp member with same | later
          · cases same
          · exact ih later

/-- A built name is the text that its values render. -/
theorem render_of_buildFrom {pattern path : String} {given : FieldMap}
    (built : Template.buildFrom pattern given segments = .ok path) :
    render (fun name => ((given.get? name).getD "").toList) segments = path.toList := by
  induction segments generalizing path with
  | nil =>
      cases built
      rfl
  | cons segment rest ih =>
      cases segment with
      | literal text =>
          obtain ⟨others, later, rfl⟩ := Template.buildFrom_literal_eq_ok.mp built
          rw [render, ih later, String.toList_append]
      | field name hint =>
          obtain ⟨value, others, here, later, rfl⟩ := Template.buildFrom_field_eq_ok.mp built
          rw [render, ih later, here, String.toList_append]
          rfl

end Segment

namespace Template

open Segment

/-- Every run of neighbouring placeholders has at most one whose field has no width. -/
def Rigid (template : Template) : Prop :=
  ∀ run ∈ runs template.segments,
    run.countP (fun name => (template.shapeOf name).width.isNone) ≤ 1

instance (template : Template) : Decidable template.Rigid :=
  inferInstanceAs (Decidable (∀ run ∈ runs template.segments, _))

theorem marked_segments (template : Template) :
    Marked (literalText template.segments).contains template.segments := by
  intro text member
  refine ⟨?_, fun c stands => List.contains_iff_mem.mpr (mem_literalText member stands)⟩
  intro empty
  subst empty
  exact (canonical_of_parse template.parsed).filled member

/-- What a field accepts fixes the length of its values, unless the field is without a width. -/
theorem length_eq_of_admits {shape : Shape} {left right : List Char} (sized : shape.width.isNone = false)
    (first : shape.admits left = true) (second : shape.admits right = true) :
    left.length = right.length := by
  obtain ⟨width, kind⟩ := shape
  cases width with
  | none => cases sized
  | some width =>
      simp only [Shape.admits, Bool.and_eq_true, beq_iff_eq] at first second
      rw [first.2, second.2]

/-- Admitted values without literal text are the only admitted ones that build their name. -/
theorem get?_eq_of_build_eq {template : Template} {given other : FieldMap} {path : String}
    (rigid : template.Rigid) (built : template.build given = .ok path)
    (again : template.build other = .ok path)
    (admitted : ∀ name ∈ template.fields, ∃ value, given.get? name = some value ∧
      (template.shapeOf name).admits value.toList = true ∧
      ∀ c ∈ value.toList, c ∉ literalText template.segments)
    (accepted : ∀ name ∈ template.fields, ∃ value, other.get? name = some value ∧
      (template.shapeOf name).admits value.toList = true) :
    ∀ name ∈ template.fields, other.get? name = given.get? name := by
  have same := (render_of_buildFrom built).trans (render_of_buildFrom again).symm
  have clean : Clean (literalText template.segments).contains
      (fun name => ((given.get? name).getD "").toList) template.segments := by
    intro name occurs c member
    obtain ⟨value, held, _, free⟩ := admitted name (mem_names.mpr occurs)
    simp only [held, Option.getD_some] at member
    simpa using free c member
  have sized : ∀ name ∈ occurrences template.segments, (template.shapeOf name).width.isNone = false →
      ((given.get? name).getD "").toList.length = ((other.get? name).getD "").toList.length := by
    intro name occurs fixed
    obtain ⟨value, held, fits, _⟩ := admitted name (mem_names.mpr occurs)
    obtain ⟨again, present, suits⟩ := accepted name (mem_names.mpr occurs)
    rw [held, present]
    exact length_eq_of_admits fixed fits suits
  intro name field
  obtain ⟨value, held, _⟩ := admitted name field
  obtain ⟨again, present, _⟩ := accepted name field
  have equal := value_eq_of_render_eq template.marked_segments clean (clean.of_render_eq same) rigid
    sized same name (mem_names.mp field)
  simp only [held, present, Option.getD_some] at equal
  rw [held, present, String.toList_injective equal]

/-- A name built from admitted values without marks is parsed into these values, unless the attempt
runs into a limit. -/
theorem parse_build {template : Template} {given : FieldMap} (rigid : template.Rigid)
    (admitted : ∀ name ∈ template.fields, ∃ value, given.get? name = some value ∧
      (template.shapeOf name).admits value.toList = true ∧
      ∀ c ∈ value.toList, c ∉ literalText template.segments) :
    ∃ path, template.build given = .ok path ∧
      (template.Overflows path →
        (template.parse path).outcome = .error (.engine .tooManyBranches) ∧
          Plan.branchLimit < path.length) ∧
      (¬ template.GivesUp path → ¬ template.Overflows path →
        ∃ fields, (template.parse path).outcome = .ok fields ∧
          fields.names = template.fields ∧
          ∀ name ∈ template.fields, fields.get? name = given.get? name) := by
  obtain ⟨path, built⟩ := exists_build fun name field =>
    ⟨_, (admitted name field).choose_spec.1⟩
  refine ⟨path, built, fun full => ⟨outcome_parse_of_overflows full, lt_length_of_overflows full⟩,
    fun finished settled => ?_⟩
  have fits := fits_of_build built fun name field value held => by
    obtain ⟨known, present, accepted, _⟩ := admitted name field
    rw [held] at present
    rwa [Option.some.inj present]
  obtain ⟨values, read⟩ := Option.isSome_iff_exists.mp (isSome_reading? finished settled fits)
  have found := fits_of_reading? read
  refine ⟨template.assign values, outcome_parse_eq_ok.mpr ⟨values, read, rfl⟩, ?_, ?_⟩
  · exact found.names_assign
  · exact get?_eq_of_build_eq rigid built found.spelled admitted fun name field => found.held field

theorem build_twice (value : String) :
    twice.build (Entries.ofList [("a", value)]) = .ok (value ++ ("_" ++ (value ++ ""))) := rfl

/-- A name with a long run of digits is not parsed although the attempt is not cut off. -/
theorem parse_build_long_digits :
    ¬ ∀ (template : Template) (given : FieldMap), template.Rigid →
      (∀ name ∈ template.fields, ∃ value, given.get? name = some value ∧
        (template.shapeOf name).admits value.toList = true ∧
        ∀ c ∈ value.toList, c ∉ literalText template.segments) →
      ∃ path, template.build given = .ok path ∧
        (¬ template.GivesUp path → ∃ fields, (template.parse path).outcome = .ok fields ∧
          fields.names = template.fields ∧
          ∀ name ∈ template.fields, fields.get? name = given.get? name) := by
  intro always
  let given : FieldMap := Entries.ofList [("a", longDigits "")]
  have ones : ∀ c ∈ (longDigits "").toList, c = '1' := by
    intro c member
    rw [longDigits, String.append_empty, String.toList_ofList] at member
    exact List.eq_of_mem_replicate member
  have admitted : ∀ name ∈ twice.fields, ∃ value, given.get? name = some value ∧
      (twice.shapeOf name).admits value.toList = true ∧
      ∀ c ∈ value.toList, c ∉ literalText twice.segments := by
    intro name field
    obtain rfl : name = "a" := List.mem_singleton.mp field
    refine ⟨longDigits "", rfl, ?_, fun c member => by rw [ones c member]; decide⟩
    rw [longDigits, String.append_empty, String.toList_ofList]
    simp [shapeOf, twice, firstHint, Shape.ofHint, Shape.admits, CharClass.contains]
  obtain ⟨path, built, returns⟩ := always twice given (by decide) admitted
  have named := build_twice (longDigits "")
  rw [longDigits_append] at named
  obtain rfl := Except.ok.inj (named.symm.trans built)
  have full := overflows_twice ("_" ++ (longDigits "" ++ ""))
  obtain ⟨fields, parsed, _⟩ := returns (not_givesUp_of_overflows full)
  rw [outcome_parse_of_overflows full] at parsed
  cases parsed

/-- A repeated field and a year beside an open placeholder come back as they were given. -/
theorem parse_build_beside_year :
    let template : Template :=
      ⟨"{m}_{y:4d}{v:l}/{m}.nc",
        [.field "m" none, .literal "_", .field "y" (some ⟨"4d", some 4, .digits⟩),
          .field "v" (some ⟨"l", none, .letters⟩), .literal "/", .field "m" none, .literal ".nc"],
        by decide +kernel⟩
    ∃ fields, (template.parse "x5_2020tas/x5.nc").outcome = .ok fields ∧
      fields.names = ["m", "y", "v"] ∧ fields.get? "v" = some "tas" := by
  intro template
  let given : FieldMap := Entries.ofList [("y", "2020"), ("v", "tas"), ("m", "x5"), ("z", "")]
  have order : template.fields = ["m", "y", "v"] := by decide +kernel
  have named : template.build given = .ok "x5_2020tas/x5.nc" := by decide +kernel
  have free (value : String)
      (plain : (value.toList.all fun c => !(literalText template.segments).contains c) = true) :
      ∀ c ∈ value.toList, c ∉ literalText template.segments := by
    simpa using plain
  obtain ⟨path, built, _, returns⟩ := @parse_build template given (by decide +kernel) <| by
    rw [order]
    intro name field
    obtain rfl | rfl | rfl : name = "m" ∨ name = "y" ∨ name = "v" := by simpa using field
    · exact ⟨"x5", by decide +kernel, by decide +kernel, free _ (by decide +kernel)⟩
    · exact ⟨"2020", by decide +kernel, by decide +kernel, free _ (by decide +kernel)⟩
    · exact ⟨"tas", by decide +kernel, by decide +kernel, free _ (by decide +kernel)⟩
  obtain rfl : "x5_2020tas/x5.nc" = path := Except.ok.inj (named.symm.trans built)
  obtain ⟨fields, parsed, names, kept⟩ := returns (by decide +kernel) (by decide +kernel)
  have value : given.get? "v" = some "tas" := by decide +kernel
  exact ⟨fields, parsed, names.trans order, (kept "v" (by decide +kernel)).trans value⟩

end Template

end PathCatalog
