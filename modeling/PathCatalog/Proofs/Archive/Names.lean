import PathCatalog.Proofs.Archive
import PathCatalog.Proofs.Template.Lacking

namespace PathCatalog

open Segment

namespace Segment

/-- Of the names after some others only those are left that are not among further ones. -/
theorem namesAfter_eq_filter {seen others both : List String} {segments : List Segment}
    (member : ∀ name, name ∈ both ↔ name ∈ seen ∨ name ∈ others) :
    namesAfter both segments = (namesAfter others segments).filter fun name => name ∉ seen := by
  fun_induction namesAfter others segments generalizing both with
  | case1 => rfl
  | case2 others text rest ih => exact ih member
  | case3 others name hint rest known ih =>
      have present : name ∈ both := (member name).mpr (.inr (by simpa using known))
      rw [namesAfter, if_pos (by simpa using present), ih member]
  | case4 others name hint rest fresh ih =>
      by_cases before : name ∈ seen
      · have present : name ∈ both := (member name).mpr (.inl before)
        have same : ∀ other, other ∈ both ↔ other ∈ seen ∨ other ∈ others ++ [name] := by
          grind
        rw [namesAfter, if_pos (by simpa using present), List.filter_cons_of_neg (by simpa using before),
          ih same]
      · have absent : name ∉ both := by
          rw [member, not_or]
          exact ⟨before, by simpa using fresh⟩
        have same : ∀ other, other ∈ both ++ [name] ↔ other ∈ seen ∨ other ∈ others ++ [name] := by
          grind
        rw [namesAfter, if_neg (by simpa using absent), List.filter_cons_of_pos (by simpa using before),
          ih same]

/-- Two templates in a row have the fields of the first and then the new ones of the second. -/
theorem namesAfter_seamed (seen : List String) (left right : List Segment) :
    namesAfter seen (seamed left right) =
      namesAfter seen left ++ namesAfter (seen ++ namesAfter seen left) right := by
  fun_induction seamed left right generalizing seen with
  | case1 right => simp [namesAfter]
  | case2 text other right => simp [namesAfter]
  | case3 segment left right _ ih =>
      cases segment with
      | literal text => rw [namesAfter, ih, namesAfter]
      | field name hint =>
          rw [namesAfter, namesAfter]
          split
          · rw [ih]
          · rw [ih]
            simp

/-- The fields of two templates in a row are those of the first and then the others of the second. -/
theorem names_seamed (left right : List Segment) :
    names (seamed left right) =
      names left ++ (names right).filter fun name => name ∉ names left := by
  rw [names, namesAfter_seamed, List.nil_append, ← names]
  congr 1
  exact namesAfter_eq_filter fun name => by simp

end Segment

/-- A pattern and its normal form: an empty one is kept, any other ends in exactly one separator. -/
inductive Normalised : String → String → Prop where
  | empty : Normalised "" ""
  | ended {front : String} {count : Nat} (bare : front.toList.getLast? ≠ some separator)
      (filled : front ++ String.ofList (List.replicate count separator) ≠ "") :
      Normalised (front ++ String.ofList (List.replicate count separator)) (front ++ "/")

/-- Directory patterns are given in their normal form. -/
theorem normalised_directoryPattern (pattern : String) :
    Normalised pattern (directoryPattern pattern) := by
  obtain ⟨front, count, bare, rfl⟩ := exists_bare pattern
  by_cases empty : front ++ String.ofList (List.replicate count separator) = ""
  · rw [empty]
    exact .empty
  · rw [directoryPattern_eq bare empty]
    exact .ended bare empty

namespace Archive

variable (archive : Archive)

/-- The fields of the whole are those of the directory and then the others of the file. -/
theorem keys_eq : archive.keys =
    archive.path.fields ++ archive.file.fields.filter fun name => name ∉ archive.path.fields := by
  rw [keys, Template.fields, segments_full, names_seamed]
  rfl

/-- The whole lacks the field that the directory lacks first, or else the one that the file does. -/
theorem lacking?_full (given : FieldMap) :
    archive.full.lacking? given =
      (archive.path.lacking? given).or (archive.file.lacking? given) := by
  have fields : archive.full.fields = _ := archive.keys_eq
  rw [Template.lacking?, fields, List.find?_append, ← Template.lacking?]
  cases lacks : archive.path.lacking? given with
  | some name => rfl
  | none =>
      have held := List.find?_eq_none.mp lacks
      rw [Option.none_or, Option.none_or, List.find?_filter, Template.lacking?]
      congr 1
      funext name
      by_cases absent : (given.get? name).isNone = true
      · have other : name ∉ archive.path.fields := fun member => held name member absent
        simp [absent, other]
      · simp [absent]

/-- The full name fails as the directory does, or else as the file does. -/
theorem fullName_eq_error {given : FieldMap} {fault : Failure} :
    archive.fullName given = .error fault ↔
      (∃ field, archive.pathName given = .error (.missingField field archive.path.pattern) ∧
        archive.path.lacking? given = some field ∧
        fault = .missingField field archive.full.pattern) ∨
      ∃ directory field, archive.pathName given = .ok directory ∧
        archive.fileName given = .error (.missingField field archive.file.pattern) ∧
        archive.file.lacking? given = some field ∧
        fault = .missingField field archive.full.pattern := by
  rw [fullName, Template.build_eq_error, lacking?_full]
  simp only [pathName, fileName, Template.build_eq_missingField, and_self_left]
  cases built : archive.path.build given with
  | ok directory =>
      rw [Template.lacking?_of_build built, Option.none_or]
      simp
  | error cause =>
      obtain ⟨field, lacks, _⟩ := Template.build_eq_error.mp built
      rw [lacks, Option.some_or]
      simp

/-- The whole of an archive is its directory and then its file, in segments, fields and names. -/
theorem whole_of_parts {pathPattern filePattern : String} {archive : Archive}
    (compiled : compile pathPattern filePattern = .ok archive) :
    Normalised pathPattern archive.path.pattern ∧ archive.file.pattern = filePattern ∧
      archive.full.segments = seamed archive.path.segments archive.file.segments ∧
      archive.keys = archive.path.fields ++
        archive.file.fields.filter (fun name => name ∉ archive.path.fields) ∧
      ∀ given,
        (∀ name, archive.fullName given = .ok name ↔
          ∃ directory file, archive.pathName given = .ok directory ∧
            archive.fileName given = .ok file ∧ directory ++ file = name) ∧
        ∀ fault, archive.fullName given = .error fault ↔
          (∃ field, archive.pathName given = .error (.missingField field archive.path.pattern) ∧
            archive.path.lacking? given = some field ∧
            fault = .missingField field archive.full.pattern) ∨
          ∃ directory field, archive.pathName given = .ok directory ∧
            archive.fileName given = .error (.missingField field archive.file.pattern) ∧
            archive.file.lacking? given = some field ∧
            fault = .missingField field archive.full.pattern := by
  obtain ⟨_, path, file⟩ := of_compile_eq_ok compiled
  refine ⟨?_, file, archive.segments_full, archive.keys_eq, fun given =>
    ⟨fun name => archive.fullName_eq_ok, fun fault => archive.fullName_eq_error⟩⟩
  rw [path]
  exact normalised_directoryPattern pathPattern

/-- The literals at the seam become one; the directory has no value for its run, so it is named. -/
theorem whole_of_parts_merging_seam :
    let model : Segment := .field "model" none
    let run : Segment := .field "run" (some ⟨"2d", some 2, .digits⟩)
    let year : Segment := .field "year" (some ⟨"4d", some 4, .digits⟩)
    let path : Template := ⟨"\x7b\x7b{model}/{run:2d}/",
      [.literal "\x7b", model, .literal "/", run, .literal "/"], by decide +kernel⟩
    let file : Template := ⟨"\x7d\x7d{model}_{year:4d}.nc",
      [.literal "\x7d", model, .literal "_", year, .literal ".nc"], by decide +kernel⟩
    let full : Template := ⟨"\x7b\x7b{model}/{run:2d}/\x7d\x7d{model}_{year:4d}.nc",
      [.literal "\x7b", model, .literal "/", run, .literal "/\x7d", model, .literal "_", year,
        .literal ".nc"], by decide +kernel⟩
    let archive : Archive := ⟨path, file, full, by decide⟩
    let given : FieldMap := Entries.ofList [("model", "a")]
    Archive.compile "\x7b\x7b{model}/{run:2d}//" "\x7d\x7d{model}_{year:4d}.nc" = .ok archive ∧
      archive.full.segments = seamed path.segments file.segments ∧
      archive.keys = ["model", "run", "year"] ∧
      archive.fullName given = .error (.missingField "run" full.pattern) := by
  intro model run year path file full archive given
  have compiled :
      Archive.compile "\x7b\x7b{model}/{run:2d}//" "\x7d\x7d{model}_{year:4d}.nc" = .ok archive :=
    compile_eq_ok.mpr ⟨by decide, Template.compile_eq_ok.mpr (by decide +kernel),
      Template.compile_eq_ok.mpr (by decide +kernel), Template.compile_eq_ok.mpr (by decide +kernel)⟩
  obtain ⟨_, _, segments, keys, names⟩ := whole_of_parts compiled
  have lacks : archive.path.lacking? given = some "run" := by decide +kernel
  refine ⟨compiled, segments, keys.trans (by decide +kernel), (names given).2 _ |>.mpr (.inl ?_)⟩
  exact ⟨"run", Template.build_eq_missingField.mpr lacks, lacks, rfl⟩

end Archive

end PathCatalog
