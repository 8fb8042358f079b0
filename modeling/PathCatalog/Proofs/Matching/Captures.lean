import Mathlib.Data.List.Basic
import PathCatalog.Proofs.Matching.Pending
import PathCatalog.Proofs.Template.Naming
import PathCatalog.Proofs.Template.Parsed

namespace PathCatalog

namespace Plan

open Segment

/-- Fields that occur once are never recalled. -/
theorem unrepeated_demandsAfter {seen : List String} {segments : List Segment}
    (distinct : (seen ++ occurrences segments).Nodup) : Unrepeated (demandsAfter seen segments) := by
  fun_induction demandsAfter seen segments with
  | case1 =>
      intro index member
      cases member
  | case2 seen text rest ih =>
      intro index member
      exact ih distinct index (by simpa using member)
  | case3 seen name hint rest index found ih =>
      have known : name ∈ seen := List.isSome_idxOf?.mp (Option.isSome_of_eq_some found)
      exact absurd rfl ((List.nodup_append.mp distinct).2.2 name known name (List.mem_cons_self ..))
  | case4 seen name hint rest fresh ih =>
      intro index member
      refine ih ?_ index (by simpa using member)
      rwa [List.append_assoc]

/-- A field that no other one precedes and whose value is long opens too many branches. -/
theorem attempt_of_long_run {kind : CharClass} {demands others : List Demand} {text : List Char}
    (classed : kind ≠ .any) (starts : (divide demands).1 = .capture ⟨none, kind⟩ :: others)
    (long : branchLimit < (text.takeWhile kind.contains).length) (budget : Nat) :
    attempt demands text budget = .overflowed := by
  rw [attempt_eq_search, starts]
  exact search_of_long_run classed long

end Plan

namespace Template

/-- The attempt on a candidate goes back to pending branches more often than is allowed. -/
def GivesUp (template : Template) (candidate : String) : Prop :=
  Plan.attempt (Plan.demands template.segments) candidate.toList Plan.failureLimit = .exhausted

instance (template : Template) (candidate : String) : Decidable (template.GivesUp candidate) :=
  inferInstanceAs (Decidable (_ = Plan.Verdict.exhausted))

/-- The attempt on a candidate opens more branches than can be pending. -/
def Overflows (template : Template) (candidate : String) : Prop :=
  Plan.attempt (Plan.demands template.segments) candidate.toList Plan.failureLimit = .overflowed

instance (template : Template) (candidate : String) : Decidable (template.Overflows candidate) :=
  inferInstanceAs (Decidable (_ = Plan.Verdict.overflowed))

/-- What is read from a candidate, the events left aside. -/
def reading? (template : Template) (candidate : String) : Option (List String) :=
  match Plan.attempt (Plan.demands template.segments) candidate.toList Plan.failureLimit with
  | .found spans => some (Plan.valuesOf spans)
  | _ => none

variable {template : Template} {candidate : String}

theorem not_givesUp_of_overflows (full : template.Overflows candidate) :
    ¬ template.GivesUp candidate := by
  intro cut
  cases cut.symm.trans full

theorem outcome_captures_of_overflows (full : template.Overflows candidate) :
    (template.captures candidate).outcome = .error (.engine .tooManyBranches) := by
  rw [Overflows] at full
  rw [captures, full]
  rfl

theorem outcome_captures (settled : ¬ template.Overflows candidate) :
    (template.captures candidate).outcome = .ok (template.reading? candidate) := by
  rw [Overflows] at settled
  rw [captures, reading?]
  cases verdict : Plan.attempt (Plan.demands template.segments) candidate.toList
      Plan.failureLimit with
  | overflowed => exact absurd verdict settled
  | _ => rfl

theorem outcome_isMatch_of_overflows (full : template.Overflows candidate) :
    (template.isMatch candidate).outcome = .error (.engine .tooManyBranches) := by
  rw [isMatch, Logged.outcome_bind, outcome_captures_of_overflows full]
  rfl

theorem outcome_isMatch (settled : ¬ template.Overflows candidate) :
    (template.isMatch candidate).outcome = .ok (template.reading? candidate).isSome := by
  rw [isMatch, Logged.outcome_bind, outcome_captures settled]
  rfl

/-- Matching never warns: an attempt that is cut off leaves a lesser event. -/
theorem warnings_captures (template : Template) (candidate : String) :
    (template.captures candidate).warnings = [] := by
  rw [captures]
  cases Plan.attempt (Plan.demands template.segments) candidate.toList Plan.failureLimit <;> rfl

theorem reading?_of_givesUp (cut : template.GivesUp candidate) :
    template.reading? candidate = none := by
  rw [GivesUp] at cut
  rw [reading?, cut]

theorem reading?_of_overflows (full : template.Overflows candidate) :
    template.reading? candidate = none := by
  rw [Overflows] at full
  rw [reading?, full]

theorem not_overflows_of_isSome (read : (template.reading? candidate).isSome = true) :
    ¬ template.Overflows candidate := by
  intro full
  rw [reading?_of_overflows full] at read
  cases read

theorem outcome_isMatch_eq_ok_true :
    (template.isMatch candidate).outcome = .ok true ↔
      (template.reading? candidate).isSome = true := by
  by_cases full : template.Overflows candidate
  · rw [outcome_isMatch_of_overflows full, reading?_of_overflows full]
    exact ⟨nofun, nofun⟩
  · rw [outcome_isMatch full, Except.ok.injEq]

theorem outcome_parseValues_of_overflows (full : template.Overflows candidate) :
    (template.parseValues candidate).outcome = .error (.engine .tooManyBranches) := by
  rw [parseValues, Logged.outcome_bind, outcome_captures_of_overflows full]
  rfl

theorem outcome_parseValues_eq_ok {path : String} {values : List String} :
    (template.parseValues path).outcome = .ok values ↔ template.reading? path = some values := by
  by_cases full : template.Overflows path
  · rw [outcome_parseValues_of_overflows full, reading?_of_overflows full]
    exact ⟨nofun, nofun⟩
  · rw [parseValues, Logged.outcome_bind, outcome_captures full]
    cases template.reading? path <;> simp [bind, Except.bind]

/-- A path is parsed when something is read from it, and then the fields have the values read. -/
theorem outcome_parse_eq_ok {path : String} {fields : FieldMap} :
    (template.parse path).outcome = .ok fields ↔
      ∃ values, template.reading? path = some values ∧ template.assign values = fields := by
  simp only [parse, Logged.outcome_bind_eq_ok, outcome_parseValues_eq_ok, Logged.outcome_pure,
    Except.ok.injEq]

theorem outcome_parse_of_overflows (full : template.Overflows candidate) :
    (template.parse candidate).outcome = .error (.engine .tooManyBranches) := by
  rw [parse, Logged.outcome_bind, outcome_parseValues_of_overflows full]
  rfl

/-- Without a repeated field an attempt runs into no limit. -/
theorem attempt_of_nodup (distinct : (Segment.occurrences template.segments).Nodup)
    (candidate : String) : ¬ template.GivesUp candidate ∧ ¬ template.Overflows candidate := by
  have unrepeated : Plan.Unrepeated (Plan.demandsAfter [] template.segments) :=
    Plan.unrepeated_demandsAfter distinct
  rw [GivesUp, Overflows]
  rcases Plan.attempt_of_unrepeated unrepeated candidate.toList Plan.failureLimit with
    ⟨spans, found⟩ | refused
  · rw [Plan.demands, found]
    exact ⟨Plan.Verdict.noConfusion, Plan.Verdict.noConfusion⟩
  · rw [Plan.demands, refused]
    exact ⟨Plan.Verdict.noConfusion, Plan.Verdict.noConfusion⟩

/-- Only long candidates open too many branches. -/
theorem lt_length_of_overflows (full : template.Overflows candidate) :
    Plan.branchLimit < candidate.length := by
  rw [← String.length_toList]
  exact Plan.lt_length_of_attempt_overflowed full

theorem shapes_eq_captured (template : Template) :
    template.shapes = Plan.captured (Plan.demands template.segments) :=
  (Plan.captured_demandsAfter [] template.segments).symm

/-- Unless it runs into a limit, an attempt ends in the preferred of the assignments that fit. -/
theorem reading?_chosen (finished : ¬ template.GivesUp candidate)
    (settled : ¬ template.Overflows candidate) :
    Plan.Chosen template.shapes (template.Fits candidate) (template.reading? candidate) := by
  have told := Plan.attempt_tells template.sized_demands candidate.toList Plan.failureLimit
  have chosen := Plan.settle_chosen (Plan.demands template.segments) [] candidate.toList
  rw [← template.shapes_eq_captured] at chosen
  have best := chosen.congr fun values => meets_iff_fits
  rw [reading?]
  cases verdict : Plan.attempt (Plan.demands template.segments) candidate.toList
      Plan.failureLimit with
  | exhausted => exact absurd verdict finished
  | overflowed => exact absurd verdict settled
  | refused left =>
      rw [verdict] at told
      have refused : Plan.settle _ [] candidate.toList = none := told
      rwa [refused] at best
  | found spans =>
      rw [verdict] at told
      obtain ⟨others, read, rfl⟩ := told
      rwa [read] at best

/-- What is read fits the candidate, so the values make the candidate again. -/
theorem fits_of_reading? {values : List String}
    (read : template.reading? candidate = some values) : template.Fits candidate values := by
  have found := Option.isSome_of_eq_some read
  have finished : ¬ template.GivesUp candidate := fun cut => by
    rw [reading?_of_givesUp cut] at found
    cases found
  have chosen := reading?_chosen finished (not_overflows_of_isSome found)
  rw [read] at chosen
  exact chosen.1

/-- The fields of a parsed path build the path again. -/
theorem build_of_parse {path : String} {fields : FieldMap}
    (parsed : (template.parse path).outcome = .ok fields) : template.build fields = .ok path := by
  obtain ⟨values, read, rfl⟩ := outcome_parse_eq_ok.mp parsed
  exact (fits_of_reading? read).spelled

/-- Different paths are never parsed to the same fields. -/
theorem eq_of_parse_eq {left right : String} {fields : FieldMap}
    (first : (template.parse left).outcome = .ok fields)
    (second : (template.parse right).outcome = .ok fields) : left = right := by
  have same := (build_of_parse first).symm.trans (build_of_parse second)
  exact Except.ok.inj same

/-- A candidate that some assignment fits is read unless the attempt runs into a limit. -/
theorem isSome_reading? {values : List String} (finished : ¬ template.GivesUp candidate)
    (settled : ¬ template.Overflows candidate) (fits : template.Fits candidate values) :
    (template.reading? candidate).isSome = true := by
  have chosen := reading?_chosen finished settled
  cases read : template.reading? candidate with
  | none =>
      rw [read] at chosen
      exact absurd fits (chosen values)
  | some best => rfl

theorem better_asymm {shape : Shape} {left right : String} (better : Better shape left right) :
    ¬ Better shape right left := by
  unfold Better at *
  split at better <;> simp_all <;> omega

/-- Two assignments are not each preferred to the other. -/
theorem preferred_asymm {shapes : List Shape} {left right : List String}
    (preferred : Preferred shapes left right) : ¬ Preferred shapes right left := by
  induction preferred with
  | here better =>
      intro back
      cases back with
      | here worse => exact better_asymm better worse
      | later rest => exact not_better_self _ _ better
  | later rest ih =>
      intro back
      cases back with
      | here worse => exact not_better_self _ _ worse
      | later more => exact ih more

/-- An attempt that runs into no limit reads the preferred assignment that fits; either limit takes
a repeated field. -/
theorem captures_preferred (template : Template) (candidate : String) :
    (template.Overflows candidate →
      (template.captures candidate).outcome = .error (.engine .tooManyBranches) ∧
        (template.isMatch candidate).outcome = .error (.engine .tooManyBranches) ∧
        Plan.branchLimit < candidate.length ∧
        ¬ (Segment.occurrences template.segments).Nodup) ∧
    (¬ template.Overflows candidate →
      ∃ found, (template.captures candidate).outcome = .ok found ∧
        (template.isMatch candidate).outcome = .ok found.isSome ∧
        (template.GivesUp candidate →
          found = none ∧ ¬ (Segment.occurrences template.segments).Nodup) ∧
        (¬ template.GivesUp candidate →
          (found = none ↔ ∀ values, ¬ template.Fits candidate values) ∧
          ∀ values, found = some values ↔ template.Fits candidate values ∧
            ∀ other, template.Fits candidate other → other ≠ values →
              Preferred template.shapes values other)) := by
  refine ⟨fun full => ⟨outcome_captures_of_overflows full, outcome_isMatch_of_overflows full,
    lt_length_of_overflows full, fun distinct => (attempt_of_nodup distinct candidate).2 full⟩,
    fun settled => ?_⟩
  refine ⟨template.reading? candidate, outcome_captures settled, outcome_isMatch settled,
    fun cut => ⟨reading?_of_givesUp cut, fun distinct =>
      (attempt_of_nodup distinct candidate).1 cut⟩,
    fun finished => ?_⟩
  have chosen := reading?_chosen finished settled
  cases read : template.reading? candidate with
  | none =>
      rw [read] at chosen
      refine ⟨⟨fun _ => chosen, fun _ => rfl⟩, fun values => ⟨nofun, fun best => ?_⟩⟩
      exact absurd best.1 (chosen values)
  | some best =>
      rw [read] at chosen
      refine ⟨⟨nofun, fun unfit => absurd chosen.1 (unfit best)⟩, fun values => ⟨?_, ?_⟩⟩
      · intro holds
        cases holds
        exact chosen
      · intro holds
        obtain ⟨fits, first⟩ := holds
        by_contra different
        have other : values ≠ best := fun same => different (congrArg some same.symm)
        exact preferred_asymm (chosen.2 values fits other) (first best chosen.1 other.symm)

/-- Digits, one more than branches can be pending, and some text. -/
def longDigits (rest : String) : String :=
  String.ofList (List.replicate (Plan.branchLimit + 1) '1') ++ rest

/-- Digits, and the same digits again. -/
def twice : Template :=
  ⟨"{a:d}_{a}", [.field "a" (some ⟨"d", none, .digits⟩), .literal "_", .field "a" none],
    by decide +kernel⟩

theorem longDigits_append (rest : String) : longDigits "" ++ rest = longDigits rest := by
  rw [longDigits, longDigits, String.append_empty]

theorem lt_length_longDigits (rest : String) :
    Plan.branchLimit < ((longDigits rest).toList.takeWhile CharClass.digits.contains).length := by
  have digits : ∀ c ∈ List.replicate (Plan.branchLimit + 1) '1',
      CharClass.digits.contains c = true := by
    intro c member
    rw [List.eq_of_mem_replicate member]
    rfl
  rw [longDigits, String.toList_append, String.toList_ofList,
    List.takeWhile_append_of_pos digits, List.length_append, List.length_replicate]
  omega

theorem overflows_twice (rest : String) : twice.Overflows (longDigits rest) :=
  Plan.attempt_of_long_run (by decide) rfl (lt_length_longDigits rest) _

/-- A long run of digits makes matching fail although the attempt is not cut off. -/
theorem captures_of_long_digits :
    ¬ ∀ (template : Template) (candidate : String), ¬ template.GivesUp candidate →
      ∃ found, (template.captures candidate).outcome = .ok found := by
  intro always
  have full := overflows_twice "_1"
  obtain ⟨found, matched⟩ := always twice _ (not_givesUp_of_overflows full)
  rw [outcome_captures_of_overflows full] at matched
  cases matched

end Template

end PathCatalog
