import ImportResolution.Locator.Files
import ImportResolution.Proofs.Path.Ancestors
import ImportResolution.Proofs.Specifier

/-!
# What the locator of the file tree finds

Whatever is found is a regular file, and it has an absolute path when it is looked up from
an absolute directory. A relative specifier is looked up at one path, and a path that names
a regular file is found before anything else is tried.

The lemmas `Host.directoryAt?_cases`, `Host.moduleAt?_cases` and `Host.locate_cases` say
which step of the locator can have found a file. Whatever holds of all that is found goes
through these steps.
-/

namespace ImportResolution

namespace Host

variable {host : Host} {path directory found : Path} {extensions : List Text}

/-- A relative specifier is looked up at the path that it names from the directory. -/
theorem locate_of_isRelative {specifier : Specifier} (relative : specifier.isRelative)
    (directory : Path) (extensions : List Text) :
    host.locate specifier directory extensions =
      host.moduleAt? (directory.absoluteFrom specifier) extensions specifier.isDirectoryOnly := by
  have nonempty : specifier.isEmpty = false := by
    cases specifier with
    | nil => simp [Specifier.isRelative] at relative
    | cons char rest => rfl
  simp [locate, nonempty, Specifier.kind, relative]

/-- A specifier for a package is looked up from the directory upwards. -/
theorem locate_of_namesPackage {specifier : Specifier} (named : specifier.NamesPackage) :
    host.locate specifier directory extensions =
      directory.ancestors.findSome? fun ancestor =>
        host.packageAt? specifier ancestor extensions := by
  have nonempty : specifier.isEmpty = false := by simpa using named.ne_nil
  simp [locate, nonempty, named.bare, named.ne_self, named.ne_parent]

theorem fileAt?_of_isFile (file : host.isFile path) (extensions : List Text) :
    host.fileAt? path extensions = some path := by
  simp [fileAt?, file]

/-- The paths that are tried for a file, in order. -/
def tried (path : Path) (extensions : List Text) : List Path :=
  path :: extensions.map (path ++ ·)

theorem mem_tried {candidate : Path} :
    candidate ∈ tried path extensions ↔
      candidate = path ∨ ∃ ending ∈ extensions, candidate = path ++ ending := by
  simp [tried, eq_comm]

theorem fileAt?_eq_find? :
    host.fileAt? path extensions = (tried path extensions).find? host.isFile :=
  rfl

/-- A path is among those tried for a file, and none that is tried before it is a file. -/
def IsTriedFirst (host : Host) (path : Path) (extensions : List Text) (found : Path) : Prop :=
  ∃ before after, tried path extensions = before ++ found :: after ∧
    ∀ earlier ∈ before, host.isFile earlier = false

theorem fileAt?_eq_some_iff :
    host.fileAt? path extensions = some found ↔
      host.isFile found = true ∧ host.IsTriedFirst path extensions found := by
  rw [fileAt?_eq_find?, List.find?_eq_some_iff_append]
  simp [IsTriedFirst]

theorem mem_tried_of_fileAt? (located : host.fileAt? path extensions = some found) :
    found ∈ tried path extensions :=
  List.mem_of_find?_eq_some located

/-- Nothing is tried as a directory when one of the paths tried before is a file. -/
theorem moduleAt?_eq_fileAt? {candidate : Path} (candidate_mem : candidate ∈ tried path extensions)
    (file : host.isFile candidate) :
    host.moduleAt? path extensions false = host.fileAt? path extensions := by
  have someFile : (host.fileAt? path extensions).isSome := by
    rw [fileAt?_eq_find?, List.find?_isSome]
    exact ⟨candidate, candidate_mem, file⟩
  rcases Option.isSome_iff_exists.mp someFile with ⟨first, isFirst⟩
  simp [moduleAt?, isFirst]

theorem exists_ending_of_indexOf? (located : host.indexOf? directory extensions = some found) :
    ∃ ending ∈ extensions, found = directory.join ("index".toList ++ ending) := by
  rcases List.mem_map.mp (List.mem_of_find?_eq_some located) with ⟨ending, ending_mem, same⟩
  exact ⟨ending, ending_mem, same.symm⟩

theorem isName_index_append {ending : Text} (noSlash : '/' ∉ ending) :
    Path.IsName ("index".toList ++ ending) := by
  have index : Path.IsName "index".toList := by decide
  exact index.append noSlash

/-! ## Where a file was found -/

theorem directoryAt?_cases (located : host.directoryAt? directory extensions = some found) :
    (∃ main, host.packageMain? directory = some main ∧
      (host.fileAt? (directory.absoluteFrom main) extensions = some found ∨
        host.indexOf? (directory.absoluteFrom main) extensions = some found)) ∨
    host.indexOf? directory extensions = some found := by
  unfold directoryAt? at located
  split at located
  · rcases Option.or_eq_some_iff.mp located with asMain | ⟨-, asIndex⟩
    · rcases Option.bind_eq_some_iff.mp asMain with ⟨main, isMain, located⟩
      refine Or.inl ⟨main, isMain, ?_⟩
      rcases Option.or_eq_some_iff.mp located with asFile | ⟨-, inMain⟩
      · exact Or.inl asFile
      · split at inMain
        · exact Or.inr inMain
        · contradiction
    · exact Or.inr asIndex
  · contradiction

theorem moduleAt?_cases {directoryOnly : Bool}
    (located : host.moduleAt? path extensions directoryOnly = some found) :
    directoryOnly = false ∧ host.fileAt? path extensions = some found ∨
      host.directoryAt? path extensions = some found := by
  rcases Option.or_eq_some_iff.mp located with asFile | ⟨-, asDirectory⟩
  · split at asFile
    · contradiction
    · rename_i mayBeFile
      exact Or.inl ⟨Bool.eq_false_iff.mpr mayBeFile, asFile⟩
  · exact Or.inr asDirectory

/-- Every specifier is looked up at its path from the directory, or in packages above it. -/
theorem locate_cases {specifier : Specifier}
    (located : host.locate specifier directory extensions = some found) :
    ¬specifier.NamesPackage ∧ host.moduleAt? (directory.absoluteFrom specifier) extensions
        specifier.isDirectoryOnly = some found ∨
      specifier.NamesPackage ∧ ∃ ancestor ∈ directory.ancestors,
        host.moduleAt? ((ancestor.join "node_modules".toList).join specifier) extensions
          specifier.isDirectoryOnly = some found := by
  unfold locate at located
  split at located
  · contradiction
  · rename_i nonempty
    split at located
    · rename_i bare
      simp only [Bool.and_eq_true, decide_eq_true_eq, bne_iff_ne] at bare
      rcases List.exists_of_findSome?_eq_some located with ⟨ancestor, ancestor_mem, inPackages⟩
      unfold packageAt? at inPackages
      dsimp only at inPackages
      split at inPackages
      · refine Or.inr ⟨⟨bare.1.1, ?_, bare.1.2, bare.2⟩, ancestor, ancestor_mem, inPackages⟩
        simpa using nonempty
      · contradiction
    · rename_i atPath
      refine Or.inl ⟨?_, located⟩
      intro named
      simp [named.bare, named.ne_self, named.ne_parent] at atPath

/-! ## Whatever is found is a regular file -/

theorem isFile_of_fileAt? (located : host.fileAt? path extensions = some found) :
    host.isFile found = true :=
  List.find?_some located

theorem isFile_of_indexOf? (located : host.indexOf? directory extensions = some found) :
    host.isFile found = true :=
  List.find?_some located

theorem isFile_of_directoryAt? (located : host.directoryAt? directory extensions = some found) :
    host.isFile found = true := by
  rcases directoryAt?_cases located with ⟨main, -, asFile | inMain⟩ | asIndex
  · exact isFile_of_fileAt? asFile
  · exact isFile_of_indexOf? inMain
  · exact isFile_of_indexOf? asIndex

theorem isFile_of_moduleAt? {directoryOnly : Bool}
    (located : host.moduleAt? path extensions directoryOnly = some found) :
    host.isFile found = true := by
  rcases moduleAt?_cases located with ⟨-, asFile⟩ | asDirectory
  · exact isFile_of_fileAt? asFile
  · exact isFile_of_directoryAt? asDirectory

/-! ## Whatever is found from an absolute directory has an absolute path -/

theorem isAbsolute_of_fileAt? (absolute : path.isAbsolute)
    (located : host.fileAt? path extensions = some found) : found.isAbsolute = true := by
  rcases mem_tried.mp (mem_tried_of_fileAt? located) with rfl | ⟨ending, -, rfl⟩
  · exact absolute
  · exact Path.isAbsolute_append absolute ending

theorem isAbsolute_of_indexOf? (absolute : directory.isAbsolute)
    (located : host.indexOf? directory extensions = some found) : found.isAbsolute = true := by
  rcases exists_ending_of_indexOf? located with ⟨ending, -, rfl⟩
  exact Path.isAbsolute_join absolute _

theorem isAbsolute_of_directoryAt? (absolute : directory.isAbsolute)
    (located : host.directoryAt? directory extensions = some found) :
    found.isAbsolute = true := by
  rcases directoryAt?_cases located with ⟨main, -, asFile | inMain⟩ | asIndex
  · exact isAbsolute_of_fileAt? (Path.isAbsolute_absoluteFrom absolute main) asFile
  · exact isAbsolute_of_indexOf? (Path.isAbsolute_absoluteFrom absolute main) inMain
  · exact isAbsolute_of_indexOf? absolute asIndex

theorem isAbsolute_of_moduleAt? {directoryOnly : Bool} (absolute : path.isAbsolute)
    (located : host.moduleAt? path extensions directoryOnly = some found) :
    found.isAbsolute = true := by
  rcases moduleAt?_cases located with ⟨-, asFile⟩ | asDirectory
  · exact isAbsolute_of_fileAt? absolute asFile
  · exact isAbsolute_of_directoryAt? absolute asDirectory

theorem isAbsolute_of_locate {specifier : Specifier} (absolute : directory.isAbsolute)
    (located : host.locate specifier directory extensions = some found) :
    found.isAbsolute = true := by
  rcases locate_cases located with ⟨-, atPath⟩ | ⟨-, ancestor, ancestor_mem, inPackages⟩
  · exact isAbsolute_of_moduleAt? (Path.isAbsolute_absoluteFrom absolute specifier) atPath
  · have above := Path.isAbsolute_of_mem_ancestors absolute ancestor_mem
    apply isAbsolute_of_moduleAt? ?_ inPackages
    exact Path.isAbsolute_join (Path.isAbsolute_join above _) specifier

/-! ## Whatever is found below a clean path has a clean path -/

theorem isName_of_isFile_root_append {ending : Text} (noSlash : '/' ∉ ending)
    (file : host.isFile ('/' :: ending)) : Path.IsName ending := by
  rw [Specifier.isName_iff noSlash]
  refine ⟨?_, ?_, ?_⟩
  · rintro rfl
    have isRoot : host.isFile ['/'] = false := rfl
    simp [isRoot] at file
  · rintro rfl
    have isRoot : host.isFile ['/', '.'] = false := rfl
    simp [isRoot] at file
  · rintro rfl
    have isRoot : host.isFile ['/', '.', '.'] = false := rfl
    simp [isRoot] at file

theorem isNormal_of_fileAt? (noSlash : ∀ ending ∈ extensions, '/' ∉ ending)
    (pathNormal : path.IsNormal) (located : host.fileAt? path extensions = some found) :
    found.IsNormal := by
  have isFile := isFile_of_fileAt? located
  rcases mem_tried.mp (mem_tried_of_fileAt? located) with rfl | ⟨ending, ending_mem, rfl⟩
  · exact pathNormal
  · rcases Path.IsNormal.iff_rooted.mp pathNormal with ⟨names, all, rfl⟩
    rcases List.eq_nil_or_concat' names with rfl | ⟨directory, name, rfl⟩
    · have isName := isName_of_isFile_root_append (noSlash ending ending_mem) isFile
      exact Path.isNormal_rooted (Path.AreNames.cons.mpr ⟨isName, Path.AreNames.nil⟩)
    · rcases Path.AreNames.concat.mp all with ⟨directoryNames, isName⟩
      rw [Path.rooted_concat_append]
      exact Path.isNormal_rooted
        (Path.AreNames.concat.mpr ⟨directoryNames, isName.append (noSlash ending ending_mem)⟩)

theorem isNormal_of_indexOf? (noSlash : ∀ ending ∈ extensions, '/' ∉ ending)
    (directoryNormal : directory.IsNormal)
    (located : host.indexOf? directory extensions = some found) : found.IsNormal := by
  rcases exists_ending_of_indexOf? located with ⟨ending, ending_mem, rfl⟩
  rcases Path.IsNormal.iff_rooted.mp directoryNormal with ⟨names, all, rfl⟩
  have isName := isName_index_append (noSlash ending ending_mem)
  rw [Path.join_rooted all isName]
  exact Path.isNormal_rooted (Path.AreNames.concat.mpr ⟨all, isName⟩)

theorem isNormal_of_directoryAt? (noSlash : ∀ ending ∈ extensions, '/' ∉ ending)
    (directoryNormal : directory.IsNormal)
    (located : host.directoryAt? directory extensions = some found) : found.IsNormal := by
  rcases directoryAt?_cases located with ⟨main, -, asFile | inMain⟩ | asIndex
  · exact isNormal_of_fileAt? noSlash (Path.isNormal_absoluteFrom directoryNormal.absolute main)
      asFile
  · exact isNormal_of_indexOf? noSlash (Path.isNormal_absoluteFrom directoryNormal.absolute main)
      inMain
  · exact isNormal_of_indexOf? noSlash directoryNormal asIndex

/-- Extensions without slashes never lead to a path that cleaning would change. -/
theorem isNormal_of_moduleAt? {directoryOnly : Bool}
    (noSlash : ∀ ending ∈ extensions, '/' ∉ ending) (pathNormal : path.IsNormal)
    (located : host.moduleAt? path extensions directoryOnly = some found) : found.IsNormal := by
  rcases moduleAt?_cases located with ⟨-, asFile⟩ | asDirectory
  · exact isNormal_of_fileAt? noSlash pathNormal asFile
  · exact isNormal_of_directoryAt? noSlash pathNormal asDirectory

end Host

end ImportResolution
