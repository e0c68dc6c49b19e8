import ImportResolution.Proofs.Locator.Files
import ImportResolution.Proofs.Path.Ancestors

/-!
# The candidates of a lookup

The locator searches in blocks: a block for each path at which the specifier is looked up,
in it the path as a file, the main entry of its package file and its index. Put one after
the other, the paths of all blocks are the candidates, and what the locator finds is the
first of them that is a regular file (`Host.isFirstFile_locate`).
-/

namespace ImportResolution

namespace Host

/-- The index files of a directory, in order. -/
def indexes (directory : Path) (extensions : List Text) : List Path :=
  extensions.map fun ending => directory.join ("index".toList ++ ending)

/-- What the main entry of a directory leads to, in order. -/
def mainCandidates (host : Host) (directory : Path) (extensions : List Text) : List Path :=
  match host.packageMain? directory with
  | none => []
  | some main =>
      let target := directory.absoluteFrom main
      tried target extensions ++
        if host.isDirectory target then indexes target extensions else []

/-- What a path leads to, in order: files, and then what stands for the directory. -/
def candidatesAt (host : Host) (base : Path) (extensions : List Text) (directoryOnly : Bool) :
    List Path :=
  (if directoryOnly then [] else tried base extensions) ++
    if host.isDirectory base then
      host.mainCandidates base extensions ++ indexes base extensions
    else []

/--
The paths at which a specifier is looked up: the one that it names from the directory, or
for a package one below each `node_modules` that there is on the climb from the directory.
-/
def bases (host : Host) (specifier : Specifier) (directory : Path) : List Path :=
  if specifier.isRelative || specifier.isAbsolute || specifier == ['.'] ||
      specifier == ['.', '.'] then
    [directory.absoluteFrom specifier]
  else
    ((directory.ancestors.map (·.join "node_modules".toList)).filter host.isDirectory).map
      (·.join specifier)

/-- All that a specifier may lead to from a directory, in order. -/
def candidates (host : Host) (specifier : Specifier) (directory : Path)
    (extensions : List Text) : List Path :=
  (host.bases specifier directory).flatMap
    (host.candidatesAt · extensions specifier.isDirectoryOnly)

/-- A path of the list is a regular file, and none before it is one. -/
def IsFirstFile (host : Host) (paths : List Path) (found : Path) : Prop :=
  ∃ before after, paths = before ++ found :: after ∧ host.isFile found = true ∧
    ∀ earlier ∈ before, host.isFile earlier = false

variable {host : Host} {base directory found : Path} {specifier : Specifier}
  {extensions : List Text}

theorem find?_isFile_eq_some_iff {paths : List Path} :
    paths.find? host.isFile = some found ↔ host.IsFirstFile paths found := by
  rw [List.find?_eq_some_iff_append]
  constructor
  · rintro ⟨file, before, after, whole, others⟩
    exact ⟨before, after, whole, file, fun earlier mem => by simpa using others earlier mem⟩
  · rintro ⟨before, after, whole, file, others⟩
    exact ⟨file, before, after, whole, fun earlier mem => by simpa using others earlier mem⟩

theorem mainOf?_eq_find? :
    host.mainOf? directory extensions =
      (host.mainCandidates directory extensions).find? host.isFile := by
  unfold mainOf? mainCandidates
  cases host.packageMain? directory with
  | none => rfl
  | some main =>
      dsimp only [Option.bind_eq_bind, Option.bind_some]
      rw [List.find?_append, fileAt?_eq_find?, indexOf?, indexes]
      split
      · rfl
      · rfl

theorem moduleAt?_eq_find? {directoryOnly : Bool} :
    host.moduleAt? base extensions directoryOnly =
      (host.candidatesAt base extensions directoryOnly).find? host.isFile := by
  have asFile : (if directoryOnly then none else host.fileAt? base extensions) =
      (if directoryOnly then [] else tried base extensions).find? host.isFile := by
    cases directoryOnly <;> rfl
  rw [moduleAt?, candidatesAt, List.find?_append, asFile, directoryAt?]
  congr 1
  split
  · rw [List.find?_append, mainOf?_eq_find?, indexOf?, indexes]
  · rfl

/-- The packages above a directory are searched one after the other. -/
theorem findSome?_packageAt? {paths : List Path} :
    paths.findSome? (host.packageAt? specifier · extensions) =
      (((paths.map (·.join "node_modules".toList)).filter host.isDirectory).map
        (·.join specifier)).findSome?
          (host.moduleAt? · extensions specifier.isDirectoryOnly) := by
  induction paths with
  | nil => rfl
  | cons path paths ih =>
      rw [List.findSome?_cons, ih, packageAt?, List.map_cons, List.filter_cons]
      by_cases isPackages : host.isDirectory (path.join "node_modules".toList) = true
      · rw [if_pos isPackages, if_pos isPackages, List.map_cons, List.findSome?_cons]
      · rw [if_neg isPackages, if_neg isPackages]

theorem locate_eq_find? (nonempty : specifier ≠ []) :
    host.locate specifier directory extensions =
      (host.candidates specifier directory extensions).find? host.isFile := by
  have notEmpty : specifier.isEmpty = false := by simpa using nonempty
  have eachBase : ∀ path, (host.candidatesAt path extensions specifier.isDirectoryOnly).find?
      host.isFile = host.moduleAt? path extensions specifier.isDirectoryOnly :=
    fun path => moduleAt?_eq_find?.symm
  have inPackages : (specifier.kind = .bare && specifier != ['.'] && specifier != ['.', '.']) =
      !(specifier.isRelative || specifier.isAbsolute || specifier == ['.'] ||
        specifier == ['.', '.']) := by
    unfold Specifier.kind
    cases specifier.isRelative <;> cases specifier.isAbsolute <;> simp [bne]
  rw [candidates, List.find?_flatMap, bases, locate, notEmpty, inPackages]
  simp only [eachBase, Bool.false_eq_true, if_false]
  by_cases atPath : (specifier.isRelative || specifier.isAbsolute || specifier == ['.'] ||
      specifier == ['.', '.']) = true
  · rw [atPath]
    simp
  · rw [Bool.not_eq_true] at atPath
    rw [atPath]
    simp only [Bool.not_false, if_true, Bool.false_eq_true, if_false]
    exact findSome?_packageAt?

/--
The locator finds the first regular file among the candidates, and nothing exactly when
none of them is one. The climb that gives the candidates for a package goes on until there
is no directory above.
-/
theorem isFirstFile_locate (host : Host) (nonempty : specifier ≠ []) (directory : Path)
    (extensions : List Text) :
    Path.IsClimb directory directory.ancestors ∧
    (∀ found, host.locate specifier directory extensions = some found ↔
      host.IsFirstFile (host.candidates specifier directory extensions) found) ∧
    (host.locate specifier directory extensions = none ↔
      ∀ candidate ∈ host.candidates specifier directory extensions,
        host.isFile candidate = false) := by
  rw [locate_eq_find? nonempty]
  refine ⟨Path.isClimb_ancestors directory, fun found => find?_isFile_eq_some_iff, ?_⟩
  simp

/-- A package whose main entry leads nowhere, above a directory without packages. -/
def missingMainHost : Host where
  tree := ⟨[("node_modules".toList, .directory [("p".toList, .directory [
      ("index.js".toList, .file (some [])),
      ("package.json".toList, .file (some "\x7b\"main\":\"gone\"\x7d".toList))])]),
    ("d".toList, .directory [])]⟩
  directory := ⟨[], 0⟩
  nodeEnv := none

theorem isFirstFile_locate_in_missingMainHost :
    "p".toList ≠ [] ∧
    missingMainHost.candidates "p".toList "/d".toList [".js".toList] =
      ["/node_modules/p", "/node_modules/p.js", "/node_modules/p/gone", "/node_modules/p/gone.js",
        "/node_modules/p/index.js"].map String.toList ∧
    missingMainHost.locate "p".toList "/d".toList [".js".toList] =
      some "/node_modules/p/index.js".toList := by
  have candidates : missingMainHost.candidates "p".toList "/d".toList [".js".toList] =
      ["/node_modules/p", "/node_modules/p.js", "/node_modules/p/gone", "/node_modules/p/gone.js",
        "/node_modules/p/index.js"].map String.toList := by decide +kernel
  have first : missingMainHost.IsFirstFile
      (missingMainHost.candidates "p".toList "/d".toList [".js".toList])
      "/node_modules/p/index.js".toList := by
    rw [candidates]
    exact ⟨["/node_modules/p", "/node_modules/p.js", "/node_modules/p/gone",
      "/node_modules/p/gone.js"].map String.toList, [], rfl, by decide +kernel, by decide +kernel⟩
  have located := isFirstFile_locate missingMainHost (by decide : "p".toList ≠ []) "/d".toList
    [".js".toList]
  exact ⟨by decide, candidates, (located.2.1 _).mpr first⟩

end Host

end ImportResolution
