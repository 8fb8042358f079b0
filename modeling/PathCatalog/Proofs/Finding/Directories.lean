import PathCatalog.Proofs.Archive
import PathCatalog.Proofs.Finding.Separators
import PathCatalog.Proofs.Glob.Coverage
import PathCatalog.Proofs.Provider.Listed
import PathCatalog.Proofs.Provider.Spelled

namespace PathCatalog

open Segment

/-- The front of a pattern covers the directories of the paths that the pattern covers. -/
theorem Glob.Covers.parent {front name path : String}
    (covers : Covers (front ++ "/" ++ name).toList path.toList) (below : separator ∉ name.toList) :
    Covers (front ++ "/").toList (Provider.parent path).toList := by
  rw [String.toList_append, Glob.covers_append_iff] at covers
  obtain ⟨first, last, above, behind, joined⟩ := covers
  rw [← String.toList_ofList (l := first)] at above
  rw [← String.toList_ofList (l := last)] at behind
  obtain ⟨directory, ends⟩ := endsInSeparator_iff.mp
    (endsInSeparator_of_covers above (endsInSeparator_iff.mpr ⟨front, rfl⟩))
  have apart : separator ∉ (String.ofList last).toList :=
    depth_eq_zero_iff.mp (behind.depth_eq.trans (depth_eq_zero_iff.mpr below))
  have cut : path = directory ++ "/" ++ String.ofList last := by
    rw [← ends, ← String.ofList_append, joined, String.ofList_toList]
  rwa [cut, Provider.parent_append directory apart, ← ends]

namespace Provider

variable {paths answer : List String} {path pattern front name : String}

theorem mem_candidates_directory (text : String) :
    text ∈ candidates paths (front ++ "/") ↔ ∃ path ∈ paths, parent path = text := by
  have ends : endsInSeparator (front ++ "/") = true := endsInSeparator_iff.mpr ⟨front, rfl⟩
  rw [candidates, if_pos ends, mem_unseen, List.mem_map]
  simp

/-- A directory is its own parent, as nothing follows its separator. -/
theorem parent_parent (path : String) : parent (parent path) = parent path := by
  have whole := @parent_append "" (String.ofList
    (path.toList.reverse.dropWhile (· != separator)).tail.reverse) (by decide)
  rw [String.append_empty] at whole
  have same : parent path = String.ofList
      (path.toList.reverse.dropWhile (· != separator)).tail.reverse ++ "/" := by
    rw [parent, String.ofList_append]
    rfl
  rw [same, whole]

/-- The directories of all candidates are candidates of a pattern for directories. -/
theorem parent_mem_candidates (member : path ∈ candidates paths pattern) :
    parent path ∈ candidates paths (front ++ "/") := by
  apply (mem_candidates_directory _).mpr
  unfold candidates at member
  split at member
  next =>
    obtain ⟨listed, inside, rfl⟩ := List.mem_map.mp (mem_unseen.mp member).1
    exact ⟨listed, inside, (parent_parent listed).symm⟩
  next => exact ⟨path, member, rfl⟩

/-- With a path a list also answers its directory, to the front of the pattern. -/
theorem parent_answered (answered : (listed paths (front ++ "/" ++ name)).outcome = .ok answer)
    (member : path ∈ answer) (below : separator ∉ name.toList) :
    ∃ directories, (listed paths (front ++ "/")).outcome = .ok directories ∧
      parent path ∈ directories := by
  have asked (rest : String) : front ++ "/" ++ rest ≠ "" := by
    intro empty
    simpa [String.toList_append] using congrArg String.toList empty
  have whole := asked ""
  rw [String.append_empty] at whole
  rw [outcome_listed (asked name)] at answered
  cases answered
  obtain ⟨candidate, accepted⟩ := List.mem_filter.mp member
  have covers := (Glob.accepts_iff_covers _ _).mp accepted
  exact ⟨_, outcome_listed whole paths, List.mem_filter.mpr ⟨parent_mem_candidates candidate,
    (Glob.accepts_iff_covers _ _).mpr (covers.parent below)⟩⟩

end Provider

namespace Archive

variable {archive : Archive} {pathPattern filePattern : String} {query : Query}

/-- Values without separators build the name of a directory and behind it a name without them. -/
theorem exists_of_fullName (compiled : compile pathPattern filePattern = .ok archive)
    (filled : pathPattern ≠ "") {values : FieldMap} {name : String}
    (built : archive.fullName values = .ok name)
    (apart : ∀ field ∈ archive.full.fields, ∀ value, values.get? field = some value →
      separator ∉ value.toList) :
    ∃ front file, archive.pathName values = .ok (front ++ "/") ∧ name = front ++ "/" ++ file ∧
      separator ∉ file.toList := by
  obtain ⟨directory, file, above, below, rfl⟩ := archive.fullName_eq_ok.mp built
  obtain ⟨front, rfl⟩ := exists_of_pathName compiled filled above
  refine ⟨front, file, above, rfl, depth_eq_zero_iff.mp ?_⟩
  have counted := (Template.depth_eq_iff below).mpr fun field occurs =>
    apart field (archive.mem_fields_full.mpr (.inr (mem_names.mpr occurs)))
  rw [counted]
  exact List.count_eq_zero.mpr (not_mem_literalText_file compiled)

/-- A combination fills the fields of the directory as it fills them in the whole. -/
theorem pathName_filled {combination : FieldMap} {name : String}
    (built : archive.pathName (Query.filled archive.full.fields combination) = .ok name) :
    archive.pathName (Query.filled archive.path.fields combination) = .ok name := by
  rw [← built]
  refine Template.build_congr fun field inside => ?_
  rw [Query.get?_filled archive.path.nodup_fields combination inside,
    Query.get?_filled archive.full.nodup_fields combination
      (archive.mem_fields_full.mpr (.inl inside))]

/-- The directory of a path that the whole reads fits the template of directories. -/
theorem fits_path {path directory : String} {values : List String}
    (fits : archive.full.Fits path values)
    (built : archive.pathName (archive.full.assign values) = .ok directory) :
    archive.path.Fits directory
      (archive.path.fields.map fun name => ((archive.full.assign values).get? name).getD "") := by
  refine Template.fits_of_build built fun field inside value given => ?_
  obtain ⟨held, present, admitted⟩ := fits.held (archive.mem_fields_full.mpr (.inl inside))
  rw [archive.shapeOf_full inside] at admitted
  rw [present] at given
  rwa [← Option.some.inj given]

variable {paths : List String} {options others : FindOptions} {directories files : Table} {row : Row}

/-- The directory of every file that is found is found as well, unless the attempt to read it is cut
off. -/
theorem directory_of_found_file (compiled : compile pathPattern filePattern = .ok archive)
    (filled : pathPattern ≠ "") (level : query.Level)
    (foundDirectories : (archive.findPaths (.listed paths) query options).outcome = .ok directories)
    (foundFiles : (archive.findFiles (.listed paths) query others).outcome = .ok files)
    (member : row ∈ files.rows) :
    ∃ directory name, row.path = directory ++ name ∧ endsInSeparator directory = true ∧
      separator ∉ name.toList ∧
      (¬ archive.path.GivesUp directory → directory ++ directorySuffix ∈ directories.paths) := by
  obtain ⟨patterns, pattern, answer, path, expanded, inside, answered, listed, read, named⟩ :=
    Finder.origin_of_row foundFiles member
  have fits := Template.fits_of_reading? read
  have whole := Finder.whole_of_read (Provider.keepsDepth_listed paths) level expanded inside
    answered listed read
  obtain ⟨front, name, built, rfl, apart⟩ := exists_of_fullName compiled filled fits.spelled whole
  refine ⟨front ++ "/", name, named.trans String.append_empty, endsInSeparator_iff.mpr ⟨front, rfl⟩,
    apart, fun finished => ?_⟩
  -- the pattern of the file is that of the directory and then something without separators
  obtain ⟨combination, choice, searched⟩ := (Query.mem_of_expand expanded).mp inside
  obtain ⟨search, rest, above, rfl, below⟩ := exists_of_fullName compiled filled searched
    fun field known part spread => level.filled archive.full.nodup_fields choice known spread
  obtain ⟨others, again, present⟩ := Provider.parent_answered answered listed below
  rw [Provider.parent_append front apart] at present
  obtain ⟨searches, gathered, asked, collected, settled, rfl, _⟩ :=
    Finder.of_find_eq_ok foundDirectories
  have reached : search ++ "/" ∈ searches :=
    (Query.mem_of_expand asked).mpr ⟨combination, choice, pathName_filled above⟩
  have found : front ++ "/" ∈ gathered :=
    (Finder.mem_of_collect collected).mpr ⟨_, reached, others, again, present⟩
  obtain ⟨values, parsed⟩ := Option.isSome_iff_exists.mp
    (Template.isSome_reading? finished (settled _ found) (fits_path fits built))
  have kept : rowOf? archive.path directorySuffix (front ++ "/") =
      some ⟨front ++ "/" ++ directorySuffix, values⟩ := rowOf?_eq_some.mpr ⟨parsed, rfl⟩
  exact List.mem_map.mpr ⟨_, List.mem_filterMap.mpr ⟨_, found, kept⟩, rfl⟩

/-- The year and the version stand in the directory and again in the name of the file. -/
theorem directory_of_found_file_shared_fields :
    let year : Segment := .field "year" (some ⟨"4d", some 4, .digits⟩)
    let version : Segment := .field "version" none
    let path : Template := ⟨"{year:4d}/{version}_{year}/", [year, .literal "/", version,
      .literal "_", .field "year" none, .literal "/"], by decide +kernel⟩
    let file : Template := ⟨"v_{version}.nc", [.literal "v_", version, .literal ".nc"],
      by decide +kernel⟩
    let full : Template := ⟨"{year:4d}/{version}_{year}/v_{version}.nc", [year, .literal "/",
      version, .literal "_", .field "year" none, .literal "/v_", version, .literal ".nc"],
      by decide +kernel⟩
    let archive : Archive := ⟨path, file, full, by decide⟩
    let query : Query := Entries.ofList [("version", .list ["a", "b"])]
    let paths := ["2001/a_2001/v_a.nc", "2001/b_2001/v_a.nc", "2001/c_2002/v_c.nc"]
    let directories : Table := ⟨["year", "version"],
      [⟨"2001/a_2001/*", ["2001", "a"]⟩, ⟨"2001/b_2001/*", ["2001", "b"]⟩]⟩
    Archive.compile "{year:4d}/{version}_{year}" "v_{version}.nc" = .ok archive ∧
      (archive.findPaths (.listed paths) query {}).outcome = .ok directories ∧
      "2001/a_2001/*" ∈ directories.paths := by
  intro year version path file full archive query paths directories
  have compiled : Archive.compile "{year:4d}/{version}_{year}" "v_{version}.nc" = .ok archive :=
    compile_eq_ok.mpr ⟨by decide, Template.compile_eq_ok.mpr (by decide +kernel),
      Template.compile_eq_ok.mpr (by decide +kernel), Template.compile_eq_ok.mpr (by decide +kernel)⟩
  have foundDirectories : (archive.findPaths (.listed paths) query {}).outcome =
      .ok directories := by decide +kernel
  have foundFiles : (archive.findFiles (.listed paths) query {}).outcome =
      .ok ⟨["year", "version"], [⟨"2001/a_2001/v_a.nc", ["2001", "a"]⟩]⟩ := by decide +kernel
  obtain ⟨directory, name, cut, ends, apart, found⟩ := directory_of_found_file compiled (by decide)
    (by decide +kernel) foundDirectories foundFiles List.mem_cons_self
  obtain ⟨front, rfl⟩ := endsInSeparator_iff.mp ends
  have parent : front ++ "/" = "2001/a_2001/" := by
    rw [← Provider.parent_append front apart, ← cut]
    decide +kernel
  rw [parent] at found
  exact ⟨compiled, foundDirectories, found (by decide +kernel)⟩

end Archive

end PathCatalog
