import ImportResolution.Proofs.FileTree.Walk
import ImportResolution.Proofs.Resolution.Chain
import ImportResolution.Proofs.Resolution.Importer

/-!
# Results that come back

A result that a root has given is looked up again when the importing file is loaded.
`Specifier.locate_ofModule_iff` says exactly when this finds the file that the root has
found: what was kept of its path has to lead to it, and nothing that is tried earlier
may be a file.

A file that the root has found by the specifier itself or with an extension always
comes back (`Host.locate_result_of_file`). A file that stands for a directory may not
(`Host.locate_result_iff`): for a directory the root never tries a file named `index`,
but the lookup of the result begins with it.
-/

namespace ImportResolution

namespace Specifier

variable {host : Host} {options : Options} {file : Path} {specifier : Specifier}

/-- What a result keeps of the name of the file at a path. -/
def keptFileName (options : Options) (specifier : Specifier) (found : Path) : Text :=
  keptName options specifier (found.fileName?.getD [])

/-- The path that is looked up for the result that names the file at a path. -/
def keptPath (options : Options) (specifier : Specifier) (found : Path) : Path :=
  found.parentOrSelf.absoluteFrom (keptFileName options specifier found)

/--
What was kept of the path leads back to the file: as the first file that is tried when
what was kept of the name is a name, and as the module of a directory otherwise.
-/
structure ComesBack (host : Host) (options : Options) (specifier : Specifier) (found : Path) :
    Prop where
  as_file : Path.IsName (keptFileName options specifier found) →
    host.IsTriedFirst (keptPath options specifier found) options.extensions found
  as_directory : ¬Path.IsName (keptFileName options specifier found) →
    host.directoryAt? (keptPath options specifier found) options.extensions = some found

/-! ## Results read off the names of the file -/

section Names

variable {directory : List Text} {name : Text}

theorem keptFileName_rooted_concat (all : Path.AreNames (directory ++ [name])) :
    keptFileName options specifier (Path.rooted (directory ++ [name])) =
      keptName options specifier name := by
  rw [keptFileName, Path.fileName?_rooted_concat all]
  rfl

theorem keptPath_rooted_concat (all : Path.AreNames (directory ++ [name])) :
    keptPath options specifier (Path.rooted (directory ++ [name])) =
      Path.rooted (Path.follow directory (keptName options specifier name)) := by
  rcases Path.AreNames.concat.mp all with ⟨directoryNames, isName⟩
  have keptNoSlash : '/' ∉ keptName options specifier name := not_mem_keptName isName.no_slash
  have onePiece : Path.pieces (keptName options specifier name) =
      [keptName options specifier name] := Text.split_of_not_mem keptNoSlash
  rw [keptPath, keptFileName_rooted_concat all, Path.parentOrSelf_rooted all,
    List.dropLast_concat, Path.absoluteFrom_of_not_isAbsolute rfl
      (Path.isAbsolute_eq_false keptNoSlash), onePiece, Path.names_rooted directoryNames]
  rfl

theorem comesBack_rooted_concat (all : Path.AreNames (directory ++ [name])) :
    ComesBack host options specifier (Path.rooted (directory ++ [name])) ↔
      (Path.IsName (keptName options specifier name) →
        host.IsTriedFirst (Path.rooted (Path.follow directory (keptName options specifier name)))
          options.extensions (Path.rooted (directory ++ [name]))) ∧
      (¬Path.IsName (keptName options specifier name) →
        host.directoryAt? (Path.rooted (Path.follow directory (keptName options specifier name)))
          options.extensions = some (Path.rooted (directory ++ [name]))) := by
  rw [← keptPath_rooted_concat all, ← keptFileName_rooted_concat all]
  constructor
  · rintro ⟨as_file, as_directory⟩
    exact ⟨as_file, as_directory⟩
  · rintro ⟨as_file, as_directory⟩
    exact ⟨as_file, as_directory⟩

theorem rooted_concat_mem_tried (sameLists : options.stripExtensions = options.extensions)
    (keptIsName : Path.IsName (keptName options specifier name)) :
    Path.rooted (directory ++ [name]) ∈
      Host.tried (Path.rooted (Path.follow directory (keptName options specifier name)))
        options.extensions := by
  rw [Path.follow_of_isName keptIsName, Host.mem_tried]
  unfold keptName
  split
  · exact Or.inl rfl
  · rcases nameWithout_append name options.stripExtensions with whole | ⟨ending, ending_mem, lost⟩
    · rw [whole]
      exact Or.inl rfl
    · refine Or.inr ⟨ending, sameLists ▸ ending_mem, ?_⟩
      rw [Path.rooted_concat_append, lost]

end Names

/-- Looking up the result for a file finds the file exactly when it comes back. -/
theorem locate_ofModule_iff {found : Path}
    (sameLists : options.stripExtensions = options.extensions) (fileNormal : file.IsNormal)
    (importerDirectory : host.isDirectory file.parentOrSelf) (foundNormal : found.IsNormal)
    (isFile : host.isFile found) (noBackslash : '\\' ∉ found) :
    host.locate (ofModule options file specifier found) file.parentOrSelf options.extensions =
        some found ↔
      ComesBack host options specifier found := by
  rcases Host.exists_rooted_concat_of_isFile foundNormal isFile fileNormal.parentOrSelf
    importerDirectory with ⟨directory, name, rfl, all, below⟩
  rw [locate_ofModule fileNormal all noBackslash below options.extensions,
    comesBack_rooted_concat all]
  by_cases keptIsName : Path.IsName (keptName options specifier name)
  · have asFile :=
      Host.moduleAt?_eq_fileAt? (rooted_concat_mem_tried sameLists keptIsName) isFile
    simp [keptIsName, asFile, Host.fileAt?_eq_some_iff, isFile]
  · simp [keptIsName, Host.moduleAt?]

/-! ## Files that are found by their name -/

/--
What is found as a file comes back. The ending that the root has added is the one that
the result loses, so both lookups try the same files in the same order; without an
ending the extension is the one that was written, and nothing is lost.
-/
theorem comesBack_of_fileAt? {directory : List Text} {name : Text} {found : Path}
    (all : Path.AreNames (directory ++ [name]))
    (sameLists : options.stripExtensions = options.extensions)
    (noSlash : ∀ ending ∈ options.extensions, '/' ∉ ending)
    (noProperSuffix : ∀ first ∈ options.extensions, ∀ second ∈ options.extensions,
      first <:+ second → first = second)
    (sameExtension : extension name = specifier.extension)
    (located : host.fileAt? (Path.rooted (directory ++ [name])) options.extensions = some found) :
    ComesBack host options specifier found := by
  rcases Host.fileAt?_eq_some_iff.mp located with ⟨isFile, triedFirst⟩
  rcases Path.AreNames.concat.mp all with ⟨directoryNames, isName⟩
  rcases Host.mem_tried.mp (Host.mem_tried_of_fileAt? located) with rfl | ⟨ending, ending_mem, rfl⟩
  · rw [comesBack_rooted_concat all, keptName, if_pos sameExtension,
      Path.follow_of_isName isName]
    exact ⟨fun _ => triedFirst, fun notName => absurd isName notName⟩
  · have wholeName := isName.append (noSlash ending ending_mem)
    rw [Path.rooted_concat_append] at isFile triedFirst ⊢
    rw [comesBack_rooted_concat (Path.AreNames.concat.mpr ⟨directoryNames, wholeName⟩), keptName]
    split
    · have itself := Host.fileAt?_eq_some_iff.mp
        (Host.fileAt?_of_isFile isFile options.extensions)
      rw [Path.follow_of_isName wholeName]
      exact ⟨fun _ => itself.2, fun notName => absurd wholeName notName⟩
    · rw [sameLists, nameWithout_append_ending noProperSuffix ending_mem name,
        Path.follow_of_isName isName]
      exact ⟨fun _ => triedFirst, fun notName => absurd isName notName⟩

end Specifier

namespace Host

variable {host : Host} {options : Options} {file root found : Path} {specifier result : Specifier}

/-- An answer that a root has given names the module below the first root that has one. -/
theorem exists_module_of_resolved_root (fileNormal : file.IsNormal)
    (resolved : (host.resolveWith options specifier file).resolution = .resolved result .root)
    (hit : options.rootHit? host.locate specifier = some (root, found)) :
    specifier ≠ [] ∧ root ∈ options.root ∧
      result = Specifier.ofModule options file specifier found ∧
      host.moduleAt? (root.absoluteFrom ('.' :: '/' :: specifier)) options.extensions
        (Specifier.isDirectoryOnly ('.' :: '/' :: specifier)) = some found := by
  rcases Options.eq_ofModule_of_resolved_root resolved with
    ⟨nonempty, firstRoot, firstFound, firstHit, named⟩
  rcases Prod.mk.inj (Option.some.inj (hit.symm.trans firstHit)) with ⟨rfl, rfl⟩
  rcases Options.located_of_rootHit? hit with ⟨root_mem, located⟩
  rw [locate_of_isRelative rfl] at located
  rw [Path.absoluteFrom_of_isNormal host.importBase fileNormal] at named
  exact ⟨nonempty, root_mem, named, located⟩

/--
A file that a root has found by the specifier, as it is or with an extension, is what
the importing file finds by the result.
-/
theorem locate_result_of_file (sameLists : options.stripExtensions = options.extensions)
    (noSlash : ∀ ending ∈ options.extensions, '/' ∉ ending)
    (noProperSuffix : ∀ first ∈ options.extensions, ∀ second ∈ options.extensions,
      first <:+ second → first = second)
    (rootsAbsolute : ∀ root ∈ options.root, root.isAbsolute) (fileNormal : file.IsNormal)
    (importerDirectory : host.isDirectory file.parentOrSelf)
    (mayBeFile : specifier.isDirectoryOnly = false)
    (resolved : (host.resolveWith options specifier file).resolution = .resolved result .root)
    (hit : options.rootHit? host.locate specifier = some (root, found))
    (asFile : found = root.absoluteFrom ('.' :: '/' :: specifier) ∨
      ∃ ending ∈ options.extensions,
        found = root.absoluteFrom ('.' :: '/' :: specifier) ++ ending)
    (noBackslash : '\\' ∉ found) :
    host.locate result file.parentOrSelf options.extensions = some found := by
  rcases exists_module_of_resolved_root fileNormal resolved hit with
    ⟨nonempty, root_mem, rfl, located⟩
  rcases Specifier.exists_pieces_concat nonempty mayBeFile with ⟨before, name, split, isName⟩
  have isFile := isFile_of_moduleAt? located
  have foundNormal : found.IsNormal := by
    apply isNormal_of_moduleAt? noSlash ?_ located
    exact Path.isNormal_absoluteFrom (rootsAbsolute root root_mem) _
  have base := Specifier.absoluteFrom_dotted (rootsAbsolute root root_mem) split isName
  have all : Path.AreNames (Path.followAll root.names before ++ [name]) := by
    refine Path.AreNames.concat.mpr ⟨Path.areNames_followAll (Path.areNames_names root) ?_, isName⟩
    intro piece piece_mem
    exact Text.not_mem_of_mem_split (split ▸ List.mem_append_left [name] piece_mem)
  rw [base] at located asFile
  -- The specifier ends in a name, so the root has tried these files before any directory.
  rw [Specifier.isDirectoryOnly_dotted split isName,
    moduleAt?_eq_fileAt? (mem_tried.mpr asFile) isFile] at located
  have nameNoBackslash : '\\' ∉ name := by
    intro backslash_mem
    have inBase : '\\' ∈ Path.rooted (Path.followAll root.names before ++ [name]) :=
      List.mem_cons_of_mem '/' (Text.mem_joinWith_of_mem (by simp) backslash_mem)
    rcases asFile with same | ⟨ending, -, same⟩
    · exact noBackslash (same ▸ inBase)
    · exact noBackslash (same ▸ List.mem_append_left ending inBase)
  have sameExtension := (Specifier.extension_of_pieces split nameNoBackslash).symm
  rw [Specifier.locate_ofModule_iff sameLists fileNormal importerDirectory foundNormal isFile
    noBackslash]
  exact Specifier.comesBack_of_fileAt? all sameLists noSlash noProperSuffix sameExtension located

/-- A root that holds a file beside a directory with both `index` and `index.js`. -/
def indexHost : Host where
  tree := ⟨[("r".toList, .directory [
    ("a".toList, .directory [
      ("index".toList, .file (some [])), ("index.js".toList, .file (some []))]),
    ("b.js".toList, .file (some []))])]⟩
  directory := ⟨[], 0⟩
  nodeEnv := none

/-- One root and one extension, which results lose. -/
def indexOptions : Options where
  cwd := "/".toList
  extensions := [".js".toList]
  stripExtensions := [".js".toList]
  root := ["/r".toList]

theorem locate_result_of_file_in_indexHost :
    indexHost.locate "./r/b".toList (Path.parentOrSelf "/f".toList) indexOptions.extensions =
      some "/r/b.js".toList := by
  have resolved : (indexHost.resolveWith indexOptions "b".toList "/f".toList).resolution =
      .resolved "./r/b".toList .root := by decide
  have hit : indexOptions.rootHit? indexHost.locate "b".toList =
      some ("/r".toList, "/r/b.js".toList) := by decide
  exact locate_result_of_file rfl (by decide) (by decide) (by decide)
    ⟨by decide, by decide⟩ (by decide) (by decide) resolved hit
    (Or.inr ⟨".js".toList, by decide, by decide⟩) (by decide)

/--
Whatever a root has found, by the specifier or as the module of a directory, the
importing file finds it by the result exactly when it comes back.
-/
theorem locate_result_iff (sameLists : options.stripExtensions = options.extensions)
    (fileNormal : file.IsNormal) (importerDirectory : host.isDirectory file.parentOrSelf)
    (resolved : (host.resolveWith options specifier file).resolution = .resolved result .root)
    (hit : options.rootHit? host.locate specifier = some (root, found))
    (foundNormal : found.IsNormal) (noBackslash : '\\' ∉ found) :
    host.locate result file.parentOrSelf options.extensions = some found ↔
      Specifier.ComesBack host options specifier found := by
  rcases exists_module_of_resolved_root fileNormal resolved hit with ⟨-, -, rfl, located⟩
  exact Specifier.locate_ofModule_iff sameLists fileNormal importerDirectory foundNormal
    (isFile_of_moduleAt? located) noBackslash

/-- A file named `index` is tried before `index.js`, so the latter does not come back. -/
theorem not_comesBack_in_indexHost :
    ¬Specifier.ComesBack indexHost indexOptions "a".toList "/r/a/index.js".toList := by
  intro comesBack
  have resolved : (indexHost.resolveWith indexOptions "a".toList "/f".toList).resolution =
      .resolved "./r/a/index".toList .root := by decide
  have hit : indexOptions.rootHit? indexHost.locate "a".toList =
      some ("/r".toList, "/r/a/index.js".toList) := by decide
  have back := (locate_result_iff rfl ⟨by decide, by decide⟩ (by decide) resolved hit
    ⟨by decide, by decide⟩ (by decide)).mpr comesBack
  revert back
  decide

/-- A module that a root has found through a directory need not come back. -/
theorem not_forall_locate_result_of_directory :
    ¬∀ (host : Host) (options : Options) (file root found : Path) (specifier result : Specifier),
      options.stripExtensions = options.extensions →
      (∀ root ∈ options.root, root.isAbsolute) →
      file.IsNormal → host.isDirectory file.parentOrSelf →
      (host.resolveWith options specifier file).resolution = .resolved result .root →
      options.rootHit? host.locate specifier = some (root, found) →
      host.fileAt? (root.absoluteFrom ('.' :: '/' :: specifier)) options.extensions = none →
      host.directoryAt? (root.absoluteFrom ('.' :: '/' :: specifier)) options.extensions =
        some found →
      '\\' ∉ found →
      host.locate result file.parentOrSelf options.extensions = some found := by
  intro always
  have back := always indexHost indexOptions "/f".toList "/r".toList "/r/a/index.js".toList
    "a".toList "./r/a/index".toList rfl (by decide) ⟨by decide, by decide⟩ (by decide) (by decide)
    (by decide) (by decide) (by decide) (by decide)
  revert back
  decide

end Host

end ImportResolution
