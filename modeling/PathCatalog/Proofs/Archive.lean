import PathCatalog.Archive
import PathCatalog.Proofs.Template.Seam

namespace PathCatalog

open Segment

/-- Literal text is taken from the text of the template. -/
theorem Segment.mem_of_mem_literalText {text : List Char} {segments : List Segment} {c : Char}
    (joined : Joined Spelling segments text) (member : c ∈ literalText segments) : c ∈ text := by
  induction segments generalizing text with
  | nil => cases member
  | cons segment rest ih =>
      cases segment with
      | literal literal =>
          obtain ⟨back, later, rfl⟩ := joined_literal_iff.mp joined
          rcases List.mem_append.mp member with here | behind
          · apply List.mem_append_left
            apply List.mem_flatMap.mpr
            refine ⟨c, here, ?_⟩
            unfold doubled
            split <;> simp
          · exact List.mem_append_right _ (ih later behind)
      | field name hint =>
          obtain ⟨front, back, _, later, rfl⟩ := joined_cons_iff.mp joined
          exact List.mem_append_right _ (ih later member)

/-- Any text is one without a separator at its end and then some separators. -/
theorem exists_bare (text : String) :
    ∃ front count, front.toList.getLast? ≠ some separator ∧
      front ++ String.ofList (List.replicate count separator) = text := by
  obtain ⟨count, ends⟩ : ∃ count, text.toList.reverse.takeWhile (· == separator) =
      List.replicate count separator := by
    refine ⟨_, List.eq_replicate_iff.mpr ⟨rfl, fun c member => ?_⟩⟩
    simpa using List.all_eq_true.mp List.all_takeWhile c member
  have cut : List.replicate count separator ++
      text.toList.reverse.dropWhile (· == separator) = text.toList.reverse := by
    rw [← ends, List.takeWhile_append_dropWhile]
  refine ⟨String.ofList (text.toList.reverse.dropWhile (· == separator)).reverse, count, ?_, ?_⟩
  · intro same
    rw [String.toList_ofList, List.getLast?_reverse] at same
    have other := List.head?_dropWhile_not (· == separator) text.toList.reverse
    simp [same] at other
  · apply String.toList_injective
    rw [String.toList_append, String.toList_ofList, String.toList_ofList, ← List.reverse_replicate,
      ← List.reverse_append, cut, List.reverse_reverse]

/-- A directory pattern ends in one separator, however many the given one ends in. -/
theorem directoryPattern_eq {front : String} (ends : front.toList.getLast? ≠ some separator)
    {count : Nat} (filled : front ++ String.ofList (List.replicate count separator) ≠ "") :
    directoryPattern (front ++ String.ofList (List.replicate count separator)) = front ++ "/" := by
  have kept : front.toList.reverse.dropWhile (· == separator) = front.toList.reverse := by
    cases chars : front.toList.reverse with
    | nil => rfl
    | cons last rest =>
        apply List.dropWhile_cons_of_neg
        rw [← List.head?_reverse, chars] at ends
        simpa using ends
  apply String.toList_injective
  rw [directoryPattern, if_neg (by simpa using filled), String.toList_append, String.toList_ofList,
    String.toList_ofList, List.reverse_append, List.reverse_replicate,
    List.dropWhile_append_of_pos (by simp), kept, List.reverse_reverse, String.toList_append]
  rfl

/-- A directory pattern that is not empty ends in a separator. -/
theorem exists_directoryPattern {pattern : String} (filled : pattern ≠ "") :
    ∃ front, directoryPattern pattern = front ++ "/" := by
  obtain ⟨front, count, bare, rfl⟩ := exists_bare pattern
  exact ⟨front, directoryPattern_eq bare filled⟩

namespace Archive

/-- An archive is compiled when its three templates are and its file pattern has no separator. -/
theorem compile_eq_ok {pathPattern filePattern : String} {archive : Archive} :
    compile pathPattern filePattern = .ok archive ↔
      separator ∉ filePattern.toList ∧
        Template.compile (directoryPattern pathPattern) = .ok archive.path ∧
        Template.compile filePattern = .ok archive.file ∧
        Template.compile (directoryPattern pathPattern ++ filePattern) = .ok archive.full := by
  unfold compile
  split
  next present => simp_all
  next absent =>
    dsimp only
    split
    next path file full pathCompiled fileCompiled fullCompiled =>
      constructor
      · intro same
        cases same
        exact ⟨by simpa using absent, pathCompiled, fileCompiled, fullCompiled⟩
      · intro holds
        obtain ⟨_, first, second, third⟩ := holds
        obtain rfl := Except.ok.inj (pathCompiled.symm.trans first)
        obtain rfl := Except.ok.inj (fileCompiled.symm.trans second)
        obtain rfl := Except.ok.inj (fullCompiled.symm.trans third)
        rfl
    all_goals simp_all

/-- Only a file pattern without a separator makes an archive; its templates keep the patterns. -/
theorem of_compile_eq_ok {pathPattern filePattern : String} {archive : Archive}
    (compiled : compile pathPattern filePattern = .ok archive) :
    separator ∉ filePattern.toList ∧ archive.path.pattern = directoryPattern pathPattern ∧
      archive.file.pattern = filePattern := by
  obtain ⟨absent, path, file, _⟩ := compile_eq_ok.mp compiled
  exact ⟨absent, pattern_of_compile path, pattern_of_compile file⟩

variable (archive : Archive)

theorem segments_full :
    archive.full.segments = seamed archive.path.segments archive.file.segments := by
  have whole := parse_append archive.path.parsed archive.file.parsed
  rw [← archive.joined, archive.full.parsed] at whole
  exact Except.ok.inj whole

theorem mem_fields_full {name : String} :
    name ∈ archive.full.fields ↔ name ∈ archive.path.fields ∨ name ∈ archive.file.fields := by
  unfold Template.fields
  rw [mem_names, mem_names, mem_names, segments_full, occurrences_seamed, List.mem_append]

/-- The directory comes first, so its fields accept the same in the whole. -/
theorem shapeOf_full {name : String} (field : name ∈ archive.path.fields) :
    archive.full.shapeOf name = archive.path.shapeOf name := by
  unfold Template.shapeOf
  rw [segments_full, firstHint_seamed _ _ (mem_names.mp field)]

/-- The name of a file with its directory is the name of the directory and then that of the file. -/
theorem fullName_eq_ok {values : FieldMap} {name : String} :
    archive.fullName values = .ok name ↔
      ∃ directory file, archive.pathName values = .ok directory ∧
        archive.fileName values = .ok file ∧ directory ++ file = name := by
  unfold fullName pathName fileName Template.build
  rw [segments_full, Template.buildFrom_seamed_eq_ok]
  constructor
  · intro holds
    obtain ⟨directory, file, first, second, same⟩ := holds
    exact ⟨directory, file, Template.buildFrom_of_pattern _ first,
      Template.buildFrom_of_pattern _ second, same⟩
  · intro holds
    obtain ⟨directory, file, first, second, same⟩ := holds
    exact ⟨directory, file, Template.buildFrom_of_pattern _ first,
      Template.buildFrom_of_pattern _ second, same⟩

section Compiled

variable {archive} {pathPattern filePattern : String}
  (compiled : compile pathPattern filePattern = .ok archive)

include compiled

/-- The names of directories end in a separator. -/
theorem exists_of_pathName (filled : pathPattern ≠ "") {values : FieldMap} {directory : String}
    (built : archive.pathName values = .ok directory) : ∃ front, directory = front ++ "/" := by
  obtain ⟨front, ends⟩ := exists_directoryPattern filled
  have parsed := archive.path.parsed
  rw [(of_compile_eq_ok compiled).2.1, ends] at parsed
  obtain ⟨left, _, seam⟩ := exists_of_parse_separator parsed
  rw [pathName, Template.build, seam] at built
  obtain ⟨before, last, _, closing, rfl⟩ := Template.buildFrom_seamed_eq_ok.mp built
  cases closing
  exact ⟨before, rfl⟩

/-- A file pattern has no separator, so there is none in its literal text. -/
theorem not_mem_literalText_file : separator ∉ literalText archive.file.segments := by
  obtain ⟨absent, _, same⟩ := of_compile_eq_ok compiled
  have parsed := archive.file.parsed
  rw [same] at parsed
  obtain ⟨pieces, scanned, gathered⟩ := parse_eq_ok.mp parsed
  have joined := joined_gather_iff.mpr (joined_of_scan scanned)
  rw [gathered] at joined
  exact fun member => absent (mem_of_mem_literalText joined member)

end Compiled

end Archive

end PathCatalog
