import PathCatalog.Proofs.Matching.Fitting

namespace PathCatalog

namespace Segment

/-- The field of every placeholder, in order and with repetitions. -/
def occurrences : List Segment → List String
  | [] => []
  | .literal _ :: rest => occurrences rest
  | .field name _ :: rest => name :: occurrences rest

theorem mem_namesAfter {seen : List String} {segments : List Segment} {name : String} :
    name ∈ namesAfter seen segments ↔ name ∈ occurrences segments ∧ name ∉ seen := by
  fun_induction namesAfter seen segments with
  | case1 => simp [occurrences]
  | case2 seen text rest ih => exact ih
  | case3 seen other hint rest known ih =>
      rw [ih, occurrences, List.mem_cons]
      constructor
      · intro holds
        obtain ⟨later, fresh⟩ := holds
        exact ⟨.inr later, fresh⟩
      · intro holds
        obtain ⟨rfl | later, fresh⟩ := holds
        · exact absurd (by simpa using known) fresh
        · exact ⟨later, fresh⟩
  | case4 seen other hint rest fresh ih =>
      have absent : other ∉ seen := by simpa using fresh
      rw [List.mem_cons, ih, occurrences, List.mem_cons, List.mem_append, List.mem_singleton]
      constructor
      · intro holds
        rcases holds with rfl | ⟨later, new⟩
        · exact ⟨.inl rfl, absent⟩
        · exact ⟨.inr later, fun known => new (.inl known)⟩
      · intro holds
        obtain ⟨first | later, new⟩ := holds
        · exact .inl first
        · by_cases same : name = other
          · exact .inl same
          · exact .inr ⟨later, by simp [new, same]⟩

/-- The fields of a template are those of its placeholders. -/
theorem mem_names {segments : List Segment} {name : String} :
    name ∈ names segments ↔ name ∈ occurrences segments := by
  rw [names, mem_namesAfter]
  simp

end Segment

namespace Template

open Segment

section Building

variable {pattern : String} {given : FieldMap}

theorem buildFrom_literal_eq_ok {text name : String} {rest : List Segment} :
    buildFrom pattern given (.literal text :: rest) = .ok name ↔
      ∃ others, buildFrom pattern given rest = .ok others ∧ text ++ others = name :=
  map_eq_ok

theorem buildFrom_field_eq_ok {field name : String} {hint : Option Hint} {rest : List Segment} :
    buildFrom pattern given (.field field hint :: rest) = .ok name ↔
      ∃ value others, given.get? field = some value ∧
        buildFrom pattern given rest = .ok others ∧ value ++ others = name := by
  rw [buildFrom]
  cases given.get? field with
  | none => simp
  | some value => simp [map_eq_ok]

/-- A name is built only when every placeholder has a value. -/
theorem get?_of_buildFrom {segments : List Segment} {name field : String}
    (built : buildFrom pattern given segments = .ok name) (member : field ∈ occurrences segments) :
    ∃ value, given.get? field = some value := by
  induction segments generalizing name with
  | nil => cases member
  | cons segment rest ih =>
      cases segment with
      | literal text =>
          obtain ⟨others, later, _⟩ := buildFrom_literal_eq_ok.mp built
          exact ih later member
      | field other hint =>
          obtain ⟨value, others, here, later, _⟩ := buildFrom_field_eq_ok.mp built
          rcases List.mem_cons.mp member with rfl | member
          · exact ⟨value, here⟩
          · exact ih later member

/-- A value for every placeholder is all that a name needs. -/
theorem exists_buildFrom {segments : List Segment}
    (held : ∀ name ∈ occurrences segments, ∃ value, given.get? name = some value) :
    ∃ name, buildFrom pattern given segments = .ok name := by
  induction segments with
  | nil => exact ⟨"", rfl⟩
  | cons segment rest ih =>
      cases segment with
      | literal text =>
          obtain ⟨others, later⟩ := ih held
          exact ⟨_, buildFrom_literal_eq_ok.mpr ⟨others, later, rfl⟩⟩
      | field name hint =>
          obtain ⟨value, here⟩ := held name List.mem_cons_self
          obtain ⟨others, later⟩ := ih fun other member => held other (List.mem_cons_of_mem _ member)
          exact ⟨_, buildFrom_field_eq_ok.mpr ⟨value, others, here, later, rfl⟩⟩

/-- Values that agree at the placeholders build the same name. -/
theorem buildFrom_congr {other : FieldMap} {segments : List Segment}
    (same : ∀ name ∈ occurrences segments, given.get? name = other.get? name) :
    buildFrom pattern given segments = buildFrom pattern other segments := by
  induction segments with
  | nil => rfl
  | cons segment rest ih =>
      cases segment with
      | literal text => rw [buildFrom, buildFrom, ih same]
      | field name hint =>
          have later := ih fun field member => same field (List.mem_cons_of_mem _ member)
          rw [buildFrom, buildFrom, same name List.mem_cons_self, later]

end Building

theorem nodup_fields (template : Template) : template.fields.Nodup :=
  nodup_names template.segments

theorem build_congr {template : Template} {left right : FieldMap}
    (same : ∀ name ∈ template.fields, left.get? name = right.get? name) :
    template.build left = template.build right :=
  buildFrom_congr fun name member => same name (mem_names.mpr member)

theorem get?_of_build {template : Template} {given : FieldMap} {path name : String}
    (built : template.build given = .ok path) (member : name ∈ template.fields) :
    ∃ value, given.get? name = some value :=
  get?_of_buildFrom built (mem_names.mp member)

theorem exists_build {template : Template} {given : FieldMap}
    (held : ∀ name ∈ template.fields, ∃ value, given.get? name = some value) :
    ∃ path, template.build given = .ok path :=
  exists_buildFrom fun name member => held name (mem_names.mpr member)

/-- Admitted values that build a path are, in the order of the fields, an assignment that fits it. -/
theorem fits_of_build {template : Template} {given : FieldMap} {path : String}
    (built : template.build given = .ok path)
    (admitted : ∀ name ∈ template.fields, ∀ value, given.get? name = some value →
      (template.shapeOf name).admits value.toList = true) :
    template.Fits path (template.fields.map fun name => (given.get? name).getD "") := by
  refine ⟨List.length_map _, fun pair member => ?_, ?_⟩
  · rw [shapes, List.zip_map'] at member
    obtain ⟨name, field, rfl⟩ := List.mem_map.mp member
    obtain ⟨value, present⟩ := get?_of_build built field
    simpa [present] using admitted name field value present
  · rw [← built]
    refine build_congr fun name member => ?_
    obtain ⟨value, present⟩ := get?_of_build built member
    have paired : template.fields.zip (template.fields.map fun name => (given.get? name).getD "") =
        template.fields.map fun name => (name, (given.get? name).getD "") := by
      rw [← List.zip_map', List.map_id']
    rw [assign, paired, Entries.get?_ofList_map template.nodup_fields _ member, present]
    rfl

/-- An assignment that fits names exactly the fields of the template, in their order. -/
theorem Fits.names_assign {template : Template} {path : String} {values : List String}
    (fits : template.Fits path values) : (template.assign values).names = template.fields := by
  have aligned : (template.fields.zip values).map Prod.fst = template.fields :=
    List.map_fst_zip (Nat.le_of_eq fits.complete.symm)
  have distinct : ((template.fields.zip values).map Prod.fst).Nodup := by
    rw [aligned]
    exact template.nodup_fields
  rw [assign, Entries.names, Entries.pairs_ofList distinct, aligned]

/-- An assignment that fits holds an admitted value for every field. -/
theorem Fits.held {template : Template} {path : String} {values : List String}
    (fits : template.Fits path values) {name : String} (field : name ∈ template.fields) :
    ∃ value, (template.assign values).get? name = some value ∧
      (template.shapeOf name).admits value.toList = true := by
  have place : template.fields.idxOf name < template.fields.length :=
    List.idxOf_lt_length_of_mem field
  have inside : template.fields.idxOf name < values.length := by rwa [fits.complete]
  refine ⟨values[template.fields.idxOf name], ?_, ?_⟩
  · rw [assign, Entries.get?_ofList_zip template.nodup_fields, idxOf?_of_mem field,
      Option.bind_some, List.getElem?_eq_getElem inside]
  · apply fits.admitted (template.shapeOf name, values[template.fields.idxOf name])
    have along : template.fields.idxOf name < (template.shapes.zip values).length := by
      simp only [shapes, List.length_zip, List.length_map]
      omega
    rw [List.mem_iff_getElem]
    exact ⟨template.fields.idxOf name, along, by simp [shapes]⟩

end Template

end PathCatalog
