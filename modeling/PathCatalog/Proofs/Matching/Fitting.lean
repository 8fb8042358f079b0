import Mathlib.Data.List.Basic
import PathCatalog.Proofs.Entries
import PathCatalog.Proofs.Matching.Ways
import PathCatalog.Proofs.Outcome

namespace PathCatalog

namespace Segment

theorem nodup_append_namesAfter {seen : List String} (distinct : seen.Nodup)
    (segments : List Segment) : (seen ++ namesAfter seen segments).Nodup := by
  fun_induction namesAfter seen segments with
  | case1 => simpa using distinct
  | case2 seen text rest ih => exact ih distinct
  | case3 seen name hint rest known ih => exact ih distinct
  | case4 seen name hint rest fresh ih =>
      have absent : name ∉ seen := by simpa using fresh
      have more := ih (List.nodup_append.mpr ⟨distinct, by simp, by
        rintro first member _ (_ | ⟨_, ⟨⟩⟩) rfl
        exact absent member⟩)
      rwa [List.append_assoc] at more

/-- The fields of a template are distinct. -/
theorem nodup_names (segments : List Segment) : (names segments).Nodup :=
  nodup_append_namesAfter List.nodup_nil segments

theorem not_mem_of_mem_namesAfter {seen : List String} {segments : List Segment} {name : String}
    (member : name ∈ namesAfter seen segments) : name ∉ seen := by
  fun_induction namesAfter seen segments with
  | case1 => cases member
  | case2 seen text rest ih => exact ih member
  | case3 seen other hint rest known ih => exact ih member
  | case4 seen other hint rest fresh ih =>
      rcases List.mem_cons.mp member with rfl | later
      · simpa using fresh
      · exact fun known => ih later (List.mem_append_left _ known)

theorem namesAfter_known {seen : List String} {name : String} (known : name ∈ seen)
    (hint : Option Hint) (rest : List Segment) :
    namesAfter seen (.field name hint :: rest) = namesAfter seen rest :=
  if_pos (by simpa using known)

theorem namesAfter_fresh {seen : List String} {name : String} (fresh : name ∉ seen)
    (hint : Option Hint) (rest : List Segment) :
    namesAfter seen (.field name hint :: rest) = name :: namesAfter (seen ++ [name]) rest :=
  if_neg (by simpa using fresh)

theorem firstHint_of_ne {name other : String} (different : other ≠ name) (hint : Option Hint)
    (rest : List Segment) : firstHint name (.field other hint :: rest) = firstHint name rest :=
  if_neg different

end Segment

namespace Plan

open Segment

/-- What the captures accept is what the first occurrences of the fields accept. -/
theorem captured_demandsAfter (seen : List String) (segments : List Segment) :
    captured (demandsAfter seen segments) =
      (namesAfter seen segments).map fun name => Shape.ofHint (firstHint name segments) := by
  fun_induction demandsAfter seen segments with
  | case1 => rfl
  | case2 seen text rest ih => exact ih
  | case3 seen name hint rest index found ih =>
      have known : name ∈ seen := List.isSome_idxOf?.mp (Option.isSome_of_eq_some found)
      rw [captured_recall, ih, namesAfter_known known]
      refine List.map_congr_left fun other member => ?_
      rw [firstHint_of_ne]
      intro same
      subst same
      exact not_mem_of_mem_namesAfter member known
  | case4 seen name hint rest fresh ih =>
      have absent : name ∉ seen := List.idxOf?_eq_none_iff.mp fresh
      rw [captured_capture, ih, namesAfter_fresh absent, List.map_cons]
      refine congrArg₂ List.cons (congrArg Shape.ofHint (if_pos rfl).symm) ?_
      refine List.map_congr_left fun other member => ?_
      rw [firstHint_of_ne]
      intro same
      subst same
      exact not_mem_of_mem_namesAfter member (by simp)

/-- A text in front spells a name when it starts the name and the rest spells what follows. -/
theorem map_append_eq_ofList {front : String} {spelled : Except Failure String}
    {text : List Char} :
    spelled.map (front ++ ·) = .ok (String.ofList text) ↔
      front.toList <+: text ∧ spelled = .ok (String.ofList (text.drop front.length)) := by
  rw [map_eq_ok]
  constructor
  · intro holds
    obtain ⟨name, rfl, joined⟩ := holds
    have chars : front.toList ++ name.toList = text := by
      rw [← String.toList_append, joined, String.toList_ofList]
    subst chars
    rw [← String.length_toList, List.drop_left, String.ofList_toList]
    exact ⟨List.prefix_append _ _, rfl⟩
  · intro holds
    obtain ⟨⟨after, rfl⟩, rfl⟩ := holds
    refine ⟨_, rfl, ?_⟩
    rw [← String.length_toList, List.drop_left, String.ofList_append, String.ofList_toList]

/-- A name that was seen has the value that was known for it. -/
theorem lookup_known {seen known : List String} (aligned : seen.length = known.length)
    {name : String} {index : Nat} (found : seen.idxOf? name = some index)
    (more : List (String × String)) :
    ∃ value, known[index]? = some value ∧ (seen.zip known ++ more).lookup name = some value := by
  obtain ⟨inside, _⟩ := List.idxOf?_eq_some_iff.mp found
  have stands : known[index]? = some known[index] := List.getElem?_eq_getElem (aligned ▸ inside)
  refine ⟨_, stands, ?_⟩
  rw [List.lookup_append, lookup_zip, found, Option.bind_some, stands, Option.some_or]

/-- A name that was not seen has the first value after the known ones. -/
theorem lookup_fresh {seen known : List String} {name value : String} (fresh : name ∉ seen)
    (more : List (String × String)) :
    (seen.zip known ++ (name, value) :: more).lookup name = some value := by
  rw [List.lookup_append, lookup_zip, List.idxOf?_eq_none_iff.mpr fresh, Option.bind_none,
    Option.none_or, List.lookup_cons_self]

/-- Values in the order of the captures meet the demands when they are admitted and spell the name.
-/
theorem meets_demandsAfter_iff (pattern : String) {fields : FieldMap} {segments : List Segment}
    {seen known values : List String} {text : List Char} (aligned : seen.length = known.length)
    (looked : ∀ name, fields.get? name =
      (seen.zip known ++ (namesAfter seen segments).zip values).lookup name) :
    Meets known (demandsAfter seen segments) text values ↔
      values.length = (namesAfter seen segments).length ∧
        (∀ pair ∈ (captured (demandsAfter seen segments)).zip values,
          pair.1.admits pair.2.toList = true) ∧
        Template.buildFrom pattern fields segments = .ok (String.ofList text) := by
  induction segments generalizing seen known values text with
  | nil =>
      rw [demandsAfter, meets_nil, Template.buildFrom]
      constructor
      · intro holds
        obtain ⟨rfl, rfl⟩ := holds
        exact ⟨rfl, fun pair member => absurd member List.not_mem_nil, rfl⟩
      · intro holds
        obtain ⟨none, _, spelled⟩ := holds
        have empty : text = [] := by
          rw [← @String.toList_ofList text, ← Except.ok.inj spelled]
          rfl
        exact ⟨empty, List.length_eq_zero_iff.mp none⟩
  | cons segment rest ih =>
      cases segment with
      | literal chars =>
          rw [demandsAfter, meets_text, Template.buildFrom, map_append_eq_ofList,
            String.length_toList, ih aligned looked]
          simp only [namesAfter, captured_text]
          tauto
      | field name hint =>
          have valueOf := looked name
          rw [demandsAfter, Template.buildFrom]
          cases found : seen.idxOf? name with
          | some index =>
              have present : name ∈ seen := List.isSome_idxOf?.mp (Option.isSome_of_eq_some found)
              obtain ⟨value, stands, held⟩ := lookup_known aligned found _
              rw [held] at valueOf
              rw [namesAfter_known present] at looked ⊢
              rw [valueOf]
              simp only [meets_recall, stands, Option.some.injEq, exists_eq_left',
                map_append_eq_ofList, captured_recall, ih aligned looked]
              tauto
          | none =>
              have absent : name ∉ seen := List.idxOf?_eq_none_iff.mp found
              rw [namesAfter_fresh absent] at looked valueOf ⊢
              cases values with
              | nil => simp [not_meets_capture_nil]
              | cons value values =>
                  have pushed : (seen ++ [name]).zip (known ++ [value]) =
                      seen.zip known ++ [(name, value)] := by
                    rw [List.zip_append aligned]
                    rfl
                  have later : Meets (known ++ [value]) (demandsAfter (seen ++ [name]) rest)
                      (text.drop value.length) values ↔ _ :=
                    ih (by simp [aligned]) fun other => by
                      rw [looked other, pushed, List.append_assoc]
                      rfl
                  rw [List.zip_cons_cons, lookup_fresh absent] at valueOf
                  rw [valueOf, meets_capture_cons, later]
                  simp only [captured_capture, map_append_eq_ofList, List.zip_cons_cons,
                    List.forall_mem_cons, List.length_cons, Nat.add_right_cancel_iff]
                  tauto

end Plan

/-- The ways to meet a template's demands with a candidate are the assignments that fit it. -/
theorem Template.meets_iff_fits {template : Template} {candidate : String} {values : List String} :
    Plan.Meets [] (Plan.demands template.segments) candidate.toList values ↔
      template.Fits candidate values := by
  have looked (name : String) : (template.assign values).get? name =
      (([] : List String).zip ([] : List String) ++ template.fields.zip values).lookup name := by
    have distinct : template.fields.Nodup := Segment.nodup_names template.segments
    rw [Template.assign, Entries.get?_ofList_zip distinct, ← lookup_zip]
    rfl
  rw [Plan.demands, Plan.meets_demandsAfter_iff template.pattern rfl looked,
    Plan.captured_demandsAfter, String.ofList_toList]
  exact ⟨fun way => ⟨way.1, way.2.1, way.2.2⟩, fun fit => ⟨fit.1, fit.2, fit.3⟩⟩

end PathCatalog
