import ImportResolution.Proofs.FileTree.Walk
import ImportResolution.Proofs.Locator.Files

/-!
# Lookups that stay inside a directory

A specifier for a directory alone, such as `./a/`, is looked up in that directory and not
among the files beside it. Its index lies inside, and so does what a main entry leads to
when the entry leads down. An entry that leads nowhere, such as `.` or the empty path,
names the directory itself, and there the locator does try the files beside it.

`Host.isInside_of_locate_iff` says that this is the only way out.
-/

namespace ImportResolution

namespace Path

/-- A clean path that goes on from the names of a directory. -/
structure IsInside (directory path : Path) : Prop where
  normal : path.IsNormal
  goes_on : ∃ more, more ≠ [] ∧ path.names = directory.names ++ more

/-- A relative path that never goes up. -/
structure LeadsDown (path : Path) : Prop where
  relative : path.isAbsolute = false
  no_parent : ['.', '.'] ∉ path.pieces

/-- A path without steps, such as `.` or the empty one. -/
def HasNoSteps (path : Path) : Prop :=
  ∀ piece ∈ path.pieces, isBlank piece = true

theorem isInside_rooted {directory : Path} {more : List Text} (nonempty : more ≠ [])
    (all : AreNames (directory.names ++ more)) :
    IsInside directory (rooted (directory.names ++ more)) :=
  ⟨isNormal_rooted all, more, nonempty, names_rooted all⟩

theorem IsInside.exists_rooted {directory path : Path} (inside : IsInside directory path) :
    ∃ more, more ≠ [] ∧ AreNames (directory.names ++ more) ∧
      path = rooted (directory.names ++ more) := by
  rcases inside.goes_on with ⟨more, nonempty, names⟩
  refine ⟨more, nonempty, ?_, ?_⟩
  · rw [← names]
    exact areNames_names path
  · rw [← names]
    exact inside.normal.eq_rooted

/-- The files beside a directory are those named after it. -/
theorem not_isInside_append {directory : Path} {ending : Text} (normal : directory.IsNormal)
    (notRoot : directory ≠ ['/']) (noSlash : '/' ∉ ending) :
    ¬IsInside directory (directory ++ ending) := by
  intro inside
  rcases IsNormal.iff_rooted.mp normal with ⟨names, all, rfl⟩
  rcases List.eq_nil_or_concat' names with rfl | ⟨init, last, rfl⟩
  · exact notRoot rfl
  · rcases AreNames.concat.mp all with ⟨initNames, lastName⟩
    have besideNames := AreNames.concat.mpr ⟨initNames, lastName.append noSlash⟩
    rcases inside.goes_on with ⟨more, nonempty, names⟩
    rw [rooted_concat_append, names_rooted besideNames, names_rooted all] at names
    have sameLength := congrArg List.length names
    have moreLength := List.length_pos_iff.mpr nonempty
    simp only [List.length_append, List.length_singleton] at sameLength
    omega

/-- Without `..` every step goes down by one name. -/
theorem followAll_of_no_parent {pieces : List Text} (noParent : ['.', '.'] ∉ pieces)
    (names : List Text) :
    followAll names pieces = names ++ pieces.filter fun piece => !isBlank piece := by
  induction pieces generalizing names with
  | nil => simp [followAll]
  | cons piece pieces ih =>
      rw [List.mem_cons, not_or] at noParent
      rw [followAll_cons, ih noParent.2]
      by_cases blank : isBlank piece
      · simp [follow, blank]
      · simp [follow, blank, Ne.symm noParent.1]

section LeadsDown

variable {directory path : Path} (normal : directory.IsNormal) (leadsDown : path.LeadsDown)

include normal leadsDown in
theorem absoluteFrom_of_leadsDown :
    directory.absoluteFrom path =
      rooted (directory.names ++ path.pieces.filter fun piece => !isBlank piece) := by
  rw [absoluteFrom_of_not_isAbsolute normal.absolute leadsDown.relative,
    followAll_of_no_parent leadsDown.no_parent]

include normal leadsDown in
/-- A path without steps stays at the directory, any other leads inside. -/
theorem absoluteFrom_eq_or_isInside :
    path.HasNoSteps ∧ directory.absoluteFrom path = directory ∨
      ¬path.HasNoSteps ∧ IsInside directory (directory.absoluteFrom path) := by
  have leads := absoluteFrom_of_leadsDown normal leadsDown
  by_cases stays : path.HasNoSteps
  · have noNames : path.pieces.filter (fun piece => !isBlank piece) = [] := by
      rw [List.filter_eq_nil_iff]
      intro piece piece_mem
      simp [stays piece piece_mem]
    rw [noNames, List.append_nil, ← normal.eq_rooted] at leads
    exact Or.inl ⟨stays, leads⟩
  · have someNames : path.pieces.filter (fun piece => !isBlank piece) ≠ [] := by
      intro noNames
      rw [List.filter_eq_nil_iff] at noNames
      apply stays
      intro piece piece_mem
      simpa using noNames piece piece_mem
    have all : AreNames (directory.names ++ path.pieces.filter fun piece => !isBlank piece) := by
      rw [← followAll_of_no_parent leadsDown.no_parent]
      exact areNames_followAll_pieces (areNames_names directory) path
    rw [leads]
    exact Or.inr ⟨stays, isInside_rooted someNames all⟩

end LeadsDown

end Path

namespace Host

variable {host : Host} {directory path found : Path} {specifier : Specifier}
  {extensions : List Text}

/-! ## What is found inside -/

theorem isInside_root (normal : found.IsNormal) (file : host.isFile found) :
    Path.IsInside ['/'] found := by
  refine ⟨normal, found.names, ?_, rfl⟩
  intro none
  apply ne_root_of_isFile file
  rw [normal.eq_rooted, none]
  rfl

theorem isInside_of_fileAt? (noSlash : ∀ ending ∈ extensions, '/' ∉ ending)
    (inside : Path.IsInside directory path)
    (located : host.fileAt? path extensions = some found) : Path.IsInside directory found := by
  rcases mem_tried.mp (mem_tried_of_fileAt? located) with rfl | ⟨ending, ending_mem, rfl⟩
  · exact inside
  · rcases inside.exists_rooted with ⟨more, nonempty, all, rfl⟩
    rcases List.eq_nil_or_concat' more with none | ⟨init, last, rfl⟩
    · exact absurd none nonempty
    · rw [← List.append_assoc] at all ⊢
      rcases Path.AreNames.concat.mp all with ⟨initNames, lastName⟩
      have isName := lastName.append (noSlash ending ending_mem)
      have longer := Path.AreNames.concat.mpr ⟨initNames, isName⟩
      rw [Path.rooted_concat_append]
      rw [List.append_assoc] at longer ⊢
      exact Path.isInside_rooted (by simp) longer

theorem isInside_of_indexOf? (noSlash : ∀ ending ∈ extensions, '/' ∉ ending)
    (normal : path.IsNormal) (within : directory.names <+: path.names)
    (located : host.indexOf? path extensions = some found) : Path.IsInside directory found := by
  rcases exists_ending_of_indexOf? located with ⟨ending, ending_mem, rfl⟩
  rcases Path.IsNormal.iff_rooted.mp normal with ⟨names, all, rfl⟩
  rw [Path.names_rooted all] at within
  rcases within with ⟨between, rfl⟩
  have isName := isName_index_append (noSlash ending ending_mem)
  have longer := Path.AreNames.concat.mpr ⟨all, isName⟩
  rw [Path.join_rooted all isName]
  rw [List.append_assoc] at longer ⊢
  exact Path.isInside_rooted (by simp) longer

section Directory

variable (noSlash : ∀ ending ∈ extensions, '/' ∉ ending) (normal : directory.IsNormal)
  (located : host.directoryAt? directory extensions = some found)

include noSlash normal located in
/-- A directory is left only by a main entry that leads to the files beside it. -/
theorem isInside_of_directoryAt?
    (leadsDown : ∀ main, host.packageMain? directory = some main → Path.LeadsDown main)
    (nothingBeside : host.fileAt? directory extensions = none ∨
      ∀ main, host.packageMain? directory = some main → ¬Path.HasNoSteps main) :
    Path.IsInside directory found := by
  rcases directoryAt?_cases located with ⟨main, isMain, inMain⟩ | asIndex
  · have target := Path.absoluteFrom_eq_or_isInside normal (leadsDown main isMain)
    rcases target with ⟨noSteps, same⟩ | ⟨-, inside⟩
    · rw [same] at inMain
      rcases nothingBeside with noFile | steps
      · rcases inMain with asFile | asIndex
        · simp [noFile] at asFile
        · exact isInside_of_indexOf? noSlash normal List.prefix_rfl asIndex
      · exact absurd noSteps (steps main isMain)
    · rcases inMain with asFile | asIndex
      · exact isInside_of_fileAt? noSlash inside asFile
      · rcases inside.goes_on with ⟨more, -, goesOn⟩
        exact isInside_of_indexOf? noSlash inside.normal ⟨more, goesOn.symm⟩ asIndex
  · exact isInside_of_indexOf? noSlash normal List.prefix_rfl asIndex

include normal located in
/-- A main entry without steps names the directory, and the files beside it come first. -/
theorem exists_beside_of_directoryAt? {main : Path}
    (isMain : host.packageMain? directory = some main) (leadsDown : Path.LeadsDown main)
    (noSteps : Path.HasNoSteps main) {file : Path}
    (isFile : host.fileAt? directory extensions = some file) :
    ∃ ending ∈ extensions, found = directory ++ ending := by
  have stays : directory.absoluteFrom main = directory := by
    rcases Path.absoluteFrom_eq_or_isInside normal leadsDown with ⟨-, same⟩ | ⟨steps, -⟩
    · exact same
    · exact absurd noSteps steps
  unfold directoryAt? at located
  split at located
  · rename_i isDirectory
    have same : file = found := by
      simpa [mainOf?, isMain, stays, isFile] using located
    subst same
    rcases mem_tried.mp (mem_tried_of_fileAt? isFile) with itself | beside
    · have notDirectory := isDirectory_eq_false_of_isFile (isFile_of_fileAt? isFile)
      simp [itself, isDirectory] at notDirectory
    · exact beside
  · contradiction

end Directory

/--
Of a directory whose main entry leads down, the lookup finds what lies inside, unless the
entry has no steps and there is a file beside the directory; then it finds that file.
-/
theorem isInside_of_locate_iff (absolute : directory.isAbsolute)
    (noSlash : ∀ ending ∈ extensions, '/' ∉ ending) (only : specifier.isDirectoryOnly)
    (atPath : ¬specifier.NamesPackage)
    (leadsDown : ∀ main, host.packageMain? (directory.absoluteFrom specifier) = some main →
      Path.LeadsDown main)
    (located : host.locate specifier directory extensions = some found) :
    (Path.IsInside (directory.absoluteFrom specifier) found ↔
      directory.absoluteFrom specifier = ['/'] ∨
      host.fileAt? (directory.absoluteFrom specifier) extensions = none ∨
      ∀ main, host.packageMain? (directory.absoluteFrom specifier) = some main →
        ¬Path.HasNoSteps main) ∧
    (directory.absoluteFrom specifier ≠ ['/'] →
      (Path.IsInside (directory.absoluteFrom specifier) found ↔
        ∀ ending ∈ extensions, found ≠ directory.absoluteFrom specifier ++ ending)) := by
  rcases locate_cases located with ⟨-, located⟩ | ⟨named, -⟩
  case inr => exact absurd named atPath
  rcases moduleAt?_cases located with ⟨mayBeFile, -⟩ | located
  case inl => simp [only] at mayBeFile
  have normal := Path.isNormal_absoluteFrom absolute specifier
  generalize directory.absoluteFrom specifier = target at *
  by_cases stays : host.fileAt? target extensions = none ∨
      ∀ main, host.packageMain? target = some main → ¬Path.HasNoSteps main
  · have inside := isInside_of_directoryAt? noSlash normal located leadsDown stays
    refine ⟨iff_of_true inside (Or.inr stays), fun notRoot => iff_of_true inside ?_⟩
    rintro ending ending_mem rfl
    exact Path.not_isInside_append normal notRoot (noSlash ending ending_mem) inside
  · simp only [not_or, not_forall, not_not, ← ne_eq, Option.ne_none_iff_exists'] at stays
    rcases stays with ⟨⟨file, isFile⟩, main, isMain, noSteps⟩
    rcases exists_beside_of_directoryAt? normal located isMain (leadsDown main isMain) noSteps
      isFile with ⟨ending, ending_mem, rfl⟩
    have outside := fun notRoot =>
      Path.not_isInside_append normal notRoot (noSlash ending ending_mem)
    refine ⟨⟨?_, ?_⟩, fun notRoot => iff_of_false (outside notRoot) ?_⟩
    · intro inside
      by_contra notInside
      exact outside (fun isRoot => notInside (Or.inl isRoot)) inside
    · rintro (isRoot | noFile | steps)
      · rw [isRoot] at located ⊢
        exact isInside_root (isNormal_of_directoryAt? noSlash (isRoot ▸ normal) located)
          (isFile_of_directoryAt? located)
      · simp [isFile] at noFile
      · exact absurd noSteps (steps main isMain)
    · intro beside
      exact beside ending ending_mem rfl

/-- A directory with the given main entry, and a file of the same name beside it. -/
def besideHost (main : String) : Host where
  tree := ⟨[("a".toList, .directory [("index.js".toList, .file (some [])),
      ("package.json".toList, .file (some ("\x7b\"main\":\"" ++ main ++ "\"\x7d").toList))]),
    ("a.js".toList, .file (some []))]⟩
  directory := ⟨[], 0⟩
  nodeEnv := none

theorem isInside_of_locate_in_besideHost :
    (besideHost "index").locate "./a/".toList "/".toList [".js".toList] =
      some "/a/index.js".toList ∧
    Path.IsInside "/a".toList "/a/index.js".toList := by
  have target : Path.absoluteFrom "/".toList "./a/".toList = "/a".toList := by decide
  have atPath : ¬Specifier.NamesPackage "./a/".toList := fun named => absurd named.bare (by decide)
  have isMain : (besideHost "index").packageMain? "/a".toList = some "index".toList := by
    decide +kernel
  have located : (besideHost "index").locate "./a/".toList "/".toList [".js".toList] =
      some "/a/index.js".toList := by decide +kernel
  have leadsDown : ∀ main, (besideHost "index").packageMain?
      (Path.absoluteFrom "/".toList "./a/".toList) = some main → Path.LeadsDown main := by
    intro main found
    rw [target, isMain] at found
    cases found
    exact ⟨by decide, by decide⟩
  have steps : ∀ main, (besideHost "index").packageMain? "/a".toList = some main →
      ¬Path.HasNoSteps main := by
    intro main found noSteps
    rw [isMain] at found
    cases found
    exact absurd (noSteps "index".toList (by decide)) (by decide)
  have inside := isInside_of_locate_iff rfl (by decide) (by decide) atPath leadsDown located
  rw [target] at inside
  exact ⟨located, inside.1.mpr (Or.inr (Or.inr steps))⟩

/-- A main entry that is empty leads to the file beside the directory. -/
theorem not_forall_isInside_of_locate :
    ¬∀ (host : Host) (directory found : Path) (specifier : Specifier) (extensions : List Text),
      directory.isAbsolute → (∀ ending ∈ extensions, '/' ∉ ending) → specifier.isDirectoryOnly →
      ¬specifier.NamesPackage →
      (∀ main, host.packageMain? (directory.absoluteFrom specifier) = some main →
        Path.LeadsDown main) →
      host.locate specifier directory extensions = some found →
      Path.IsInside (directory.absoluteFrom specifier) found := by
  intro always
  have target : Path.absoluteFrom "/".toList "./a/".toList = "/a".toList := by decide
  have atPath : ¬Specifier.NamesPackage "./a/".toList := fun named => absurd named.bare (by decide)
  have isMain : (besideHost "").packageMain? "/a".toList = some [] := by decide +kernel
  have located : (besideHost "").locate "./a/".toList "/".toList [".js".toList] =
      some "/a.js".toList := by decide +kernel
  have leadsDown : ∀ main, (besideHost "").packageMain?
      (Path.absoluteFrom "/".toList "./a/".toList) = some main → Path.LeadsDown main := by
    intro main found
    rw [target, isMain] at found
    cases found
    exact ⟨rfl, by decide⟩
  have inside := always (besideHost "") "/".toList "/a.js".toList "./a/".toList [".js".toList]
    rfl (by decide) (by decide) atPath leadsDown located
  have normal : Path.IsNormal "/a".toList := ⟨by decide, by decide⟩
  rw [target] at inside
  exact Path.not_isInside_append normal (by decide) (by decide : '/' ∉ ".js".toList) inside

end Host

end ImportResolution
