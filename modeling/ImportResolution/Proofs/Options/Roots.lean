import ImportResolution.Proofs.Locator.Inside
import ImportResolution.Proofs.Options.WorkingDirectory

/-!
# Roots that a pattern adds

An entry of the roots that is a pattern is joined to the working directory, and what comes
out is expanded as one pattern. Where neither part takes a way of its own, the directories
found are within the working directory. There are two ways out: a wildcard among the names
of the working directory, which may then stand for other names, and a name of the entry
that matches `.` or `..`, since the expansion uses these as they come.

`Options.isWithin_roots_of_pattern` says that there is no third.
-/

namespace ImportResolution

open ImportResolution.Path (AreNames)

namespace Path

/-- A clean path that is a directory or goes on from its names. -/
structure IsWithin (directory path : Path) : Prop where
  normal : path.IsNormal
  goes_on : directory.names <+: path.names

/-- The names by which a relative path without `..` leads down. -/
def stepsDown (path : Path) : List Text :=
  path.pieces.filter fun piece => !isBlank piece

section Steps

variable {directory : Path} {steps : List Text}
  (all : ∀ step ∈ steps, step ≠ [] ∧ '/' ∉ step)

include all

theorem directoryPieces_rooted_steps : (rooted steps).directoryPieces = [] :: steps := by
  rw [← foldl_join_root all, directoryPieces_foldl_join ['/'] all]
  rfl

theorem mem_pieces_rooted {piece : Text} (nonempty : piece ≠ []) :
    piece ∈ (rooted steps).pieces ↔ piece ∈ steps := by
  have written := directoryPieces_rooted_steps all
  rcases pieces_eq_directoryPieces_or (rooted steps) with same | withBlank
  · simp [same, written, nonempty]
  · simp [withBlank, written, nonempty]

theorem isWithin_rooted_iff :
    IsWithin directory (rooted steps) ↔ directory.names <+: steps ∧ AreNames steps := by
  constructor
  · rintro ⟨normal, goes_on⟩
    rcases IsNormal.iff_rooted.mp normal with ⟨names, areNames, same⟩
    have written := directoryPieces_rooted_steps all
    rw [same, directoryPieces_rooted areNames] at written
    rcases List.cons.inj written with ⟨-, rfl⟩
    rw [names_rooted areNames] at goes_on
    exact ⟨goes_on, areNames⟩
  · rintro ⟨goes_on, areNames⟩
    exact ⟨isNormal_rooted areNames, by rwa [names_rooted areNames]⟩

/-- But for the two special entries, every step is a name. -/
theorem areNames_iff_of_steps :
    AreNames steps ↔ ['.'] ∉ steps ∧ ['.', '.'] ∉ steps := by
  constructor
  · intro areNames
    exact ⟨fun mem => (areNames _ mem).ne_self rfl, fun mem => (areNames _ mem).ne_parent rfl⟩
  · rintro ⟨noSelf, noParent⟩ step step_mem
    rcases all step step_mem with ⟨nonempty, noSlash⟩
    exact ⟨nonempty, fun same => noSelf (same ▸ step_mem), fun same => noParent (same ▸ step_mem),
      noSlash⟩

end Steps

end Path

namespace Host

theorem isNormal_of_currentDirectory {host : Host} {current : Path} (named : host.HasNames)
    (launched : host.currentDirectory = .ok current) : current.IsNormal := by
  unfold currentDirectory at launched
  split at launched
  · rw [← Except.ok.inj launched]
    exact Path.isNormal_rooted named.directory
  · contradiction

end Host

namespace Options

variable {host : Host} {settings : Settings} {file : Path} {options : Options}

theorem rootDirectories_of_ofSettings (normalized : ofSettings host settings file = .ok options) :
    rootDirectories host options.cwd settings.root = .ok options.root := by
  rcases exists_of_ofSettings normalized with ⟨current, -, taken⟩
  rcases exists_of_bind_eq_ok taken with ⟨roots, expanded, taken⟩
  rcases exists_of_bind_pure_eq_ok taken with ⟨rules, -, rfl⟩
  exact expanded

theorem isNormal_baseDirectory {current : Path} (currentNormal : current.IsNormal)
    (fileNormal : file.IsNormal) (base : Option BaseDirectory) :
    (baseDirectory host current file base).IsNormal := by
  unfold baseDirectory
  split
  · exact currentNormal
  · exact Path.isNormal_absoluteFrom currentNormal.absolute _
  · cases nearest : file.parent?.bind (packageDirectory? host) with
    | none => exact currentNormal
    | some found =>
        rcases Option.bind_eq_some_iff.mp nearest with ⟨above, parent, holds⟩
        exact (fileNormal.of_parent? parent).of_mem_ancestors (List.mem_of_find?_eq_some holds)

/-- The directory from which settings are taken is clean. -/
theorem isNormal_cwd (named : host.HasNames)
    (normalized : ofSettings host settings file = .ok options) : options.cwd.IsNormal := by
  rcases exists_of_ofSettings normalized with ⟨current, launched, taken⟩
  have currentNormal := Host.isNormal_of_currentDirectory named launched
  have fileNormal := Path.isNormal_absoluteFrom currentNormal.absolute file
  rcases exists_of_bind_eq_ok taken with ⟨roots, -, taken⟩
  rcases exists_of_bind_pure_eq_ok taken with ⟨rules, -, rfl⟩
  exact isNormal_baseDirectory currentNormal fileNormal settings.cwd

theorem exists_of_rootDirectories_append {cwd : Path} {earlier later : List Text}
    {roots : List Path} (expanded : rootDirectories host cwd (earlier ++ later) = .ok roots) :
    ∃ before after, rootDirectories host cwd earlier = .ok before ∧
      rootDirectories host cwd later = .ok after ∧ roots = before ++ after := by
  induction earlier generalizing roots with
  | nil => exact ⟨[], roots, rfl, expanded, rfl⟩
  | cons entry earlier ih =>
      rcases exists_of_bind_eq_ok expanded with ⟨found, first, expanded⟩
      rcases exists_of_bind_pure_eq_ok expanded with ⟨others, rest, rfl⟩
      rcases ih rest with ⟨before, after, earlierFound, laterFound, rfl⟩
      refine ⟨found ++ before, after, ?_, laterFound, by rw [List.append_assoc]⟩
      rw [rootDirectories, first, earlierFound]
      rfl

/-! ## One pattern -/

/-- A root that a pattern without `..` adds below a clean directory. -/
structure IsPatternRoot (host : Host) (cwd entry root : Path) : Prop where
  named : host.HasNames
  normal : cwd.IsNormal
  pattern : Glob.hasWildcard entry
  leadsDown : entry.LeadsDown
  found : ∃ roots, entryDirectories host cwd entry = .ok roots ∧ root ∈ roots

theorem hasWildcard_of_mem_names {cwd : Path} (normal : cwd.IsNormal)
    (plain : Glob.hasWildcard cwd = false) : ∀ name ∈ cwd.names, Glob.hasWildcard name = false := by
  intro name name_mem
  rw [Glob.hasWildcard, List.any_eq_false] at plain ⊢
  intro char char_mem
  apply plain char
  rw [normal.eq_rooted]
  exact List.mem_cons_of_mem _ (Text.mem_joinWith_of_mem name_mem char_mem)

theorem stepsDown_ne_nil {entry : Path} (pattern : Glob.hasWildcard entry) :
    entry.stepsDown ≠ [] := by
  rcases List.any_eq_true.mp pattern with ⟨char, char_mem, isWildcard⟩
  rw [← Text.joinWith_split '/' entry] at char_mem
  rcases Text.mem_joinWith char_mem with rfl | ⟨piece, piece_mem, inPiece⟩
  · simp at isWildcard
  · have notBlank : Path.isBlank piece = false := by
      rw [Bool.eq_false_iff]
      intro blank
      simp only [Path.isBlank, Bool.or_eq_true, List.isEmpty_iff, beq_iff_eq] at blank
      rcases blank with rfl | rfl
      · simp at inPiece
      · simp [List.mem_singleton.mp inPiece] at isWildcard
    exact List.ne_nil_of_mem (List.mem_filter.mpr ⟨piece_mem, by simp [notBlank]⟩)

namespace IsPatternRoot

variable {cwd entry root : Path}

theorem areNames (isRoot : IsPatternRoot host cwd entry root) :
    AreNames (cwd.names ++ entry.stepsDown) := by
  rw [Path.stepsDown, ← Path.followAll_of_no_parent isRoot.leadsDown.no_parent]
  exact Path.areNames_followAll_pieces (Path.areNames_names cwd) entry

/-- A root is a part for which the directory stands, and one for which the entry stands. -/
theorem exists_matches (isRoot : IsPatternRoot host cwd entry root) :
    ∃ upper lower, Glob.Matches cwd.names upper ∧ Glob.Matches entry.stepsDown lower ∧
      (∀ step ∈ upper ++ lower, step ≠ [] ∧ '/' ∉ step) ∧ root = Path.rooted (upper ++ lower) := by
  rcases isRoot.found with ⟨roots, expanded, root_mem⟩
  have joined : cwd.absoluteFrom entry = Path.rooted (cwd.names ++ entry.stepsDown) :=
    Path.absoluteFrom_of_leadsDown isRoot.normal isRoot.leadsDown
  have nonempty : cwd.names ++ entry.stepsDown ≠ [] := by
    simp [stepsDown_ne_nil isRoot.pattern]
  unfold entryDirectories at expanded
  simp only [joined, isRoot.pattern, if_true] at expanded
  split at expanded
  · rename_i found read
    rw [Except.ok.inj expanded] at read
    exact Glob.exists_matches_of_mem_directories isRoot.named isRoot.areNames nonempty read root_mem
  · contradiction

section Plain

variable (isRoot : IsPatternRoot host cwd entry root) (plain : Glob.hasWildcard cwd = false)

include isRoot plain

/-- Where the directory has no wildcards, a root goes on from its names. -/
theorem exists_matches_of_plain :
    ∃ lower, Glob.Matches entry.stepsDown lower ∧
      (∀ step ∈ cwd.names ++ lower, step ≠ [] ∧ '/' ∉ step) ∧
      root = Path.rooted (cwd.names ++ lower) := by
  rcases isRoot.exists_matches with ⟨upper, lower, upperMatches, lowerMatches, steps, same⟩
  obtain rfl := upperMatches.eq_of_plain (hasWildcard_of_mem_names isRoot.normal plain)
  exact ⟨lower, lowerMatches, steps, same⟩

/-- The only way out is then by `.` and `..`. -/
theorem isWithin_iff_of_plain :
    Path.IsWithin cwd root ↔ ['.'] ∉ root.pieces ∧ ['.', '.'] ∉ root.pieces := by
  rcases isRoot.exists_matches_of_plain plain with ⟨lower, -, steps, rfl⟩
  rw [Path.isWithin_rooted_iff steps, Path.areNames_iff_of_steps steps,
    Path.mem_pieces_rooted steps (by decide), Path.mem_pieces_rooted steps (by decide)]
  exact and_iff_right (List.prefix_append cwd.names lower)

theorem isWithin_of_plain (noSpecial : ∀ name ∈ entry.pieces, Glob.specialsOf name = []) :
    Path.IsWithin cwd root := by
  rcases isRoot.exists_matches_of_plain plain with ⟨lower, lowerMatches, steps, rfl⟩
  rcases AreNames.append.mp isRoot.areNames with ⟨cwdNames, entryNames⟩
  rw [Path.isWithin_rooted_iff steps, AreNames.append]
  refine ⟨List.prefix_append cwd.names lower, cwdNames, ?_⟩
  intro step step_mem
  rcases lowerMatches.isName_or_special entryNames step step_mem with
    isName | ⟨name, name_mem, special⟩
  · exact isName
  · simp [noSpecial name (List.mem_of_mem_filter name_mem)] at special

end Plain

end IsPatternRoot

/-! ## Options -/

/--
What a pattern without `..` adds stands between what the entries before and after it add. Each
root is written as steps for which the names of the working directory and then those of the
pattern stand. Where the working directory has no wildcards, a root is outside only by `.` and
`..`, and there are none of these unless a name of the pattern matches one.
-/
theorem isWithin_roots_of_pattern {earlier later : List Text} {entry : Path}
    (named : host.HasNames) (normalized : ofSettings host settings file = .ok options)
    (listed : settings.root = earlier ++ entry :: later) (pattern : Glob.hasWildcard entry)
    (leadsDown : entry.LeadsDown) :
    ∃ before roots after,
      rootDirectories host options.cwd earlier = .ok before ∧
      entryDirectories host options.cwd entry = .ok roots ∧
      rootDirectories host options.cwd later = .ok after ∧
      options.root = before ++ (roots ++ after) ∧
      (∀ root ∈ roots, ∃ upper lower, Glob.Matches options.cwd.names upper ∧
        Glob.Matches entry.stepsDown lower ∧ root = Path.rooted (upper ++ lower) ∧
        (Path.IsWithin options.cwd root ↔
          options.cwd.names <+: upper ++ lower ∧ AreNames (upper ++ lower))) ∧
      (Glob.hasWildcard options.cwd = false → ∀ root ∈ roots,
        (Path.IsWithin options.cwd root ↔ ['.'] ∉ root.pieces ∧ ['.', '.'] ∉ root.pieces) ∧
        ((∀ name ∈ entry.pieces, Glob.specialsOf name = []) →
          Path.IsWithin options.cwd root)) := by
  have normal := isNormal_cwd named normalized
  have expandedAll := rootDirectories_of_ofSettings normalized
  rw [listed] at expandedAll
  rcases exists_of_rootDirectories_append expandedAll with
    ⟨before, others, isBefore, expandedOthers, whole⟩
  rcases exists_of_bind_eq_ok expandedOthers with ⟨roots, expanded, expandedLater⟩
  rcases exists_of_bind_pure_eq_ok expandedLater with ⟨after, isAfter, rfl⟩
  have isRoot : ∀ root ∈ roots, IsPatternRoot host options.cwd entry root :=
    fun root root_mem => ⟨named, normal, pattern, leadsDown, roots, expanded, root_mem⟩
  refine ⟨before, roots, after, isBefore, expanded, isAfter, whole, ?_, ?_⟩
  · intro root root_mem
    rcases (isRoot root root_mem).exists_matches with
      ⟨upper, lower, upperMatches, lowerMatches, steps, rfl⟩
    exact ⟨upper, lower, upperMatches, lowerMatches, rfl, Path.isWithin_rooted_iff steps⟩
  · intro plain root root_mem
    exact ⟨(isRoot root root_mem).isWithin_iff_of_plain plain,
      (isRoot root root_mem).isWithin_of_plain plain⟩

/-- A host in which the name of a directory is a pattern that the name of another one matches. -/
def questionHost (location : Location) : Host where
  tree := ⟨[
    ("w?".toList, .directory [("a".toList, .directory [])]),
    ("wx".toList, .directory [("b".toList, .directory [])])]⟩
  directory := ⟨location, 0⟩
  nodeEnv := none

theorem hasNames_questionHost {location : Location} (names : AreNames location) :
    (questionHost location).HasNames := by
  have inner : ∀ name : Text, Path.IsName name →
      Branch.HasNames (.directory [(name, .directory [])]) := by
    intro name isName
    exact .directory (by simpa using isName) (by simpa using .directory nofun nofun)
  refine ⟨.directory ?_ ?_, names⟩
  · simp only [questionHost, List.forall_mem_cons]
    exact ⟨by decide, by decide, nofun⟩
  · simp only [questionHost, List.forall_mem_cons]
    exact ⟨inner _ (by decide), inner _ (by decide), nofun⟩

/-- Settings that have one entry for the roots and nothing else. -/
def oneRoot (entry : Path) : Settings := { root := [entry] }

theorem exists_options_of_oneRoot {cwd entry : Path} {roots : List Path}
    (launched : host.currentDirectory = .ok cwd)
    (expanded : entryDirectories host cwd entry = .ok roots) (file : Path) :
    ∃ options, ofSettings host (oneRoot entry) file = .ok options ∧ options.cwd = cwd ∧
      options.root = roots := by
  have base : baseDirectory host cwd (cwd.absoluteFrom file) (oneRoot entry).cwd = cwd := rfl
  have all : rootDirectories host cwd (oneRoot entry).root = .ok roots := by
    simp [oneRoot, rootDirectories, expanded, bind, Except.bind, pure, Except.pure]
  rw [ofSettings_eq_fromBase launched, base, fromBase, all]
  exact ⟨_, rfl, rfl, rfl⟩

theorem isWithin_roots_of_pattern_in_questionHost :
    ∃ options, ofSettings (questionHost ["wx".toList]) (oneRoot "*".toList) "f".toList =
        .ok options ∧
      options.root = ["/wx/b".toList] ∧ ∀ root ∈ options.root, Path.IsWithin options.cwd root := by
  have launched : (questionHost ["wx".toList]).currentDirectory = .ok "/wx".toList := rfl
  have expanded : entryDirectories (questionHost ["wx".toList]) "/wx".toList "*".toList =
      .ok ["/wx/b".toList] := by decide +kernel
  have listed : (oneRoot "*".toList).root = [] ++ "*".toList :: [] := rfl
  rcases exists_options_of_oneRoot launched expanded "f".toList with
    ⟨options, normalized, isCwd, isRoot⟩
  rcases isWithin_roots_of_pattern (hasNames_questionHost (by decide)) normalized listed (by decide)
      ⟨rfl, by decide⟩ with
    ⟨before, roots, after, isBefore, isRoots, isAfter, whole, -, within⟩
  refine ⟨options, normalized, isRoot, ?_⟩
  rw [isCwd, expanded, Except.ok.injEq] at isRoots
  rw [isRoot, isRoots]
  intro root root_mem
  exact (within (isCwd ▸ by decide) root root_mem).2 (by decide)

/-- Whether patterns that meet a condition lead to roots within the working directory. -/
def LeadWithin (condition : Path → Path → Prop) : Prop :=
  ∀ (host : Host) (settings : Settings) (file : Path) (options : Options) (entry : Path)
    (roots : List Path), host.HasNames → ofSettings host settings file = .ok options →
    entry ∈ settings.root → Glob.hasWildcard entry → entry.LeadsDown →
    entryDirectories host options.cwd entry = .ok roots → condition options.cwd entry →
    ∀ root ∈ roots, Path.IsWithin options.cwd root

theorem entryDirectories_questionHost :
    entryDirectories (questionHost ["w?".toList]) "/w?".toList "*".toList =
      .ok ["/w?/a".toList, "/wx/b".toList] := by
  have sorted : [("w?".toList, Node.directory), ("wx".toList, .directory)].Pairwise
      fun left right => Text.notAfter left.1 right.1 := by decide
  have entries : (questionHost ["w?".toList]).entries ['/'] =
      [("w?".toList, .directory), ("wx".toList, .directory)] := List.mergeSort_of_pairwise sorted
  have pattern : Path.absoluteFrom "/w?".toList "*".toList = "/w?/*".toList := by decide
  have read : Glob.segments "/w?/*".toList =
      .ok [.wildcard [.char 'w', .anyChar], .wildcard [.anyRun]] := by decide
  have levels : FileTree.maxPathLength = 4095 + 1 := rfl
  -- The first level lists both directories, in the order of their names.
  have found : Glob.directories (questionHost ["w?".toList]) "/w?/*".toList =
      .ok ["/w?/a".toList, "/wx/b".toList] := by
    rw [Glob.directories, read, levels]
    simp only [bind, Except.bind, pure, Except.pure]
    rw [Glob.expandFrom]
    · simp only [entries]
      decide +kernel
    · simp
  simp only [entryDirectories, pattern, found]
  rfl

/-- Neither of the two ways out can be left open. -/
theorem not_leadWithin :
    ¬LeadWithin (fun _ entry => ∀ name ∈ entry.pieces, Glob.specialsOf name = []) ∧
      ¬LeadWithin fun cwd _ => Glob.hasWildcard cwd = false := by
  constructor
  · intro always
    have launched : (questionHost ["w?".toList]).currentDirectory = .ok "/w?".toList := rfl
    rcases exists_options_of_oneRoot launched entryDirectories_questionHost "f".toList with
      ⟨options, normalized, isCwd, -⟩
    have expanded := entryDirectories_questionHost
    have noSpecial : ∀ name ∈ Path.pieces "*".toList, Glob.specialsOf name = [] := by decide
    rw [← isCwd] at expanded
    have within := always _ _ _ _ _ _ (hasNames_questionHost (by decide)) normalized
      (List.mem_singleton_self _) (by decide) ⟨rfl, by decide⟩ expanded noSpecial
      "/wx/b".toList (by simp)
    rw [isCwd] at within
    exact absurd within.goes_on (by decide)
  · intro always
    have launched : (questionHost ["wx".toList]).currentDirectory = .ok "/wx".toList := rfl
    have expanded : entryDirectories (questionHost ["wx".toList]) "/wx".toList ".?".toList =
        .ok ["/wx/..".toList] := by decide +kernel
    rcases exists_options_of_oneRoot launched expanded "f".toList with
      ⟨options, normalized, isCwd, -⟩
    rw [← isCwd] at expanded
    have within := always _ _ _ _ _ _ (hasNames_questionHost (by decide)) normalized
      (List.mem_singleton_self _) (by decide) ⟨rfl, by decide⟩ expanded (by rw [isCwd]; decide)
      "/wx/..".toList (by simp)
    exact absurd within.normal.clean_eq (by decide)

end Options

end ImportResolution
