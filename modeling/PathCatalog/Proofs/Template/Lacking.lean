import PathCatalog.Proofs.Template.Naming

namespace PathCatalog.Template

open Segment

/-- The first field that has no value, if there is one. -/
def lacking? (template : Template) (given : FieldMap) : Option String :=
  template.fields.find? fun name => (given.get? name).isNone

/-- Segments fail for the first of their fields without a value; those seen before have values. -/
theorem buildFrom_eq_error {pattern : String} {given : FieldMap} {seen : List String}
    {segments : List Segment} {fault : Failure}
    (held : ∀ name ∈ seen, (given.get? name).isSome = true) :
    buildFrom pattern given segments = .error fault ↔
      ∃ name, (namesAfter seen segments).find? (fun name => (given.get? name).isNone) = some name ∧
        fault = .missingField name pattern := by
  fun_induction namesAfter seen segments with
  | case1 => simp [buildFrom]
  | case2 seen text rest ih => rw [buildFrom, map_eq_error, ih held]
  | case3 seen name hint rest known ih =>
      obtain ⟨value, here⟩ := Option.isSome_iff_exists.mp (held name (by simpa using known))
      simp only [buildFrom, here]
      rw [map_eq_error, ih held]
  | case4 seen name hint rest fresh ih =>
      cases here : given.get? name with
      | none => simp [buildFrom, here, eq_comm]
      | some value =>
          have held' : ∀ other ∈ seen ++ [name], (given.get? other).isSome = true := by
            intro other member
            rcases List.mem_append.mp member with before | last
            · exact held other before
            · rw [List.mem_singleton.mp last, here]
              rfl
          simp only [buildFrom, here]
          rw [map_eq_error, ih held', List.find?_cons_of_neg (by simp [here])]

/-- A name cannot be built exactly when some field has no value; the first one is named. -/
theorem build_eq_error {template : Template} {given : FieldMap} {fault : Failure} :
    template.build given = .error fault ↔
      ∃ name, template.lacking? given = some name ∧
        fault = .missingField name template.pattern :=
  buildFrom_eq_error fun _ member => absurd member List.not_mem_nil

/-- The field named by the failure is the first one without a value. -/
theorem build_eq_missingField {template : Template} {given : FieldMap} {name : String} :
    template.build given = .error (.missingField name template.pattern) ↔
      template.lacking? given = some name := by
  rw [build_eq_error]
  constructor
  · intro holds
    obtain ⟨other, lacks, same⟩ := holds
    cases same
    exact lacks
  · exact fun lacks => ⟨name, lacks, rfl⟩

/-- A name can be built exactly when no field lacks a value. -/
theorem lacking?_of_build {template : Template} {given : FieldMap} {name : String}
    (built : template.build given = .ok name) : template.lacking? given = none := by
  refine Option.eq_none_iff_forall_ne_some.mpr fun field lacks => ?_
  rw [build_eq_missingField.mpr lacks] at built
  cases built

end PathCatalog.Template
