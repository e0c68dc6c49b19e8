import ImportResolution.Proofs.FileTree.Walk
import ImportResolution.Proofs.Locator.Files

/-!
# The paths of what is found in packages

A specifier at a path is cleaned together with its directory, and so is the main entry of
a package. A specifier for a package is not: it is put behind `node_modules` as it is
written, and with it whatever empty pieces and dots it has. So what is found has a clean
path unless an untidy specifier has named it as written (`Host.areNames_of_locate_iff`).
-/

namespace ImportResolution

/-- Written in names, each with a slash behind it but perhaps the last. -/
def Specifier.IsTidy (specifier : Specifier) : Prop :=
  Path.AreNames (Path.directoryPieces specifier)

namespace Host

variable {host : Host} {base directory found : Path} {specifier : Specifier}
  {extensions : List Text}

/-- The paths below a base that are tried without cleaning: as a file, and for an index. -/
def triedAsWritten (base : Path) (extensions : List Text) (directoryOnly : Bool) : List Path :=
  (if directoryOnly then [] else tried base extensions) ++
    extensions.map fun ending => base.join ("index".toList ++ ending)

theorem mem_triedAsWritten {directoryOnly : Bool} :
    found ∈ triedAsWritten base extensions directoryOnly ↔
      (directoryOnly = false ∧ found ∈ tried base extensions) ∨
      ∃ ending ∈ extensions, found = base.join ("index".toList ++ ending) := by
  cases directoryOnly <;> simp [triedAsWritten, eq_comm]

/-- What is found through a main entry has a clean path; all else is tried as written. -/
theorem mem_triedAsWritten_or_isNormal {directoryOnly : Bool} (absolute : base.isAbsolute)
    (noSlash : ∀ ending ∈ extensions, '/' ∉ ending)
    (located : host.moduleAt? base extensions directoryOnly = some found) :
    found ∈ triedAsWritten base extensions directoryOnly ∨ found.IsNormal := by
  rw [mem_triedAsWritten]
  rcases moduleAt?_cases located with ⟨mayBeFile, asFile⟩ | asDirectory
  · exact Or.inl (Or.inl ⟨mayBeFile, mem_tried_of_fileAt? asFile⟩)
  · rcases directoryAt?_cases asDirectory with ⟨main, -, inMain⟩ | asIndex
    · have normal := Path.isNormal_absoluteFrom absolute main
      rcases inMain with asFile | inTarget
      · exact Or.inr (isNormal_of_fileAt? noSlash normal asFile)
      · exact Or.inr (isNormal_of_indexOf? noSlash normal inTarget)
    · exact Or.inl (Or.inr (exists_ending_of_indexOf? asIndex))

theorem areNames_of_isNormal_of_isFile (normal : found.IsNormal) (file : host.isFile found) :
    Path.AreNames found.pieces.tail :=
  ((Path.isNormal_iff_areNames (ne_root_of_isFile file)).mp normal).2

theorem isNormal_packages {ancestor : Path} (normal : directory.IsNormal)
    (ancestor_mem : ancestor ∈ directory.ancestors) :
    (ancestor.join "node_modules".toList).IsNormal := by
  have above := normal.of_mem_ancestors ancestor_mem
  have isName : Path.IsName "node_modules".toList := by decide
  rcases Path.IsNormal.iff_rooted.mp above with ⟨names, all, rfl⟩
  rw [Path.join_rooted all isName]
  exact Path.isNormal_rooted (Path.AreNames.concat.mpr ⟨all, isName⟩)

section Packages

variable {packages : Path} (normal : packages.IsNormal) (named : specifier.NamesPackage)

include named in
/-- With a name at its end, a specifier is as tidy with an ending behind it as without. -/
theorem areNames_pieces_append_iff {ending : Text} (mayBeFile : specifier.isDirectoryOnly = false)
    (noSlash : '/' ∉ ending) :
    Path.AreNames (Path.pieces (specifier ++ ending)) ↔ specifier.IsTidy := by
  rcases Specifier.exists_pieces_concat named.ne_nil mayBeFile with ⟨before, last, split, isName⟩
  have noBlank : Path.directoryPieces specifier = before ++ [last] := by
    rw [Path.directoryPieces, split, List.getLast?_concat, if_neg]
    exact fun blank => isName.ne_nil (Option.some.inj blank)
  have beforeNoSlash : ∀ piece ∈ before, '/' ∉ piece := by
    intro piece piece_mem
    exact Text.not_mem_of_mem_split (split ▸ List.mem_append_left [last] piece_mem)
  have longer : Path.pieces (specifier ++ ending) = before ++ [last ++ ending] := by
    rw [← Path.joinWith_of_pieces split, Text.joinWith_concat_append]
    exact Path.pieces_joinWith_concat beforeNoSlash (isName.append noSlash).no_slash
  rw [Specifier.IsTidy, noBlank, longer, Path.AreNames.concat, Path.AreNames.concat]
  simp [isName, isName.append noSlash]

include normal named in
/-- What is tried as written has a clean path for a tidy specifier, and for no other. -/
theorem areNames_of_mem_triedAsWritten_iff (noSlash : ∀ ending ∈ extensions, '/' ∉ ending)
    (tried : found ∈ triedAsWritten (packages.join specifier) extensions
      specifier.isDirectoryOnly) :
    Path.AreNames found.pieces.tail ↔ specifier.IsTidy := by
  have relative := Specifier.isAbsolute_eq_false_of_bare named.bare
  rcases mem_triedAsWritten.mp tried with ⟨mayBeFile, asFile⟩ | ⟨ending, ending_mem, rfl⟩
  · rcases mem_tried.mp asFile with rfl | ⟨ending, ending_mem, rfl⟩
    · rw [Path.areNames_pieces_join_iff normal relative]
      simpa using areNames_pieces_append_iff named mayBeFile (by simp : '/' ∉ [])
    · have stillRelative : Path.isAbsolute (specifier ++ ending) = false := by
        rw [Path.isAbsolute_append_of_ne_nil named.ne_nil, relative]
      rw [Path.join_append packages named.ne_nil relative,
        Path.areNames_pieces_join_iff normal stillRelative]
      exact areNames_pieces_append_iff named mayBeFile (noSlash ending ending_mem)
  · have isName := isName_index_append (noSlash ending ending_mem)
    exact Path.areNames_pieces_join_name_iff normal relative isName

end Packages

/--
From a clean directory, the locator finds regular files by absolute paths. Such a path
is written in names alone, except for one that an untidy specifier for a package has named
as it is written.
-/
theorem areNames_of_locate_iff (normal : directory.IsNormal)
    (noSlash : ∀ ending ∈ extensions, '/' ∉ ending)
    (located : host.locate specifier directory extensions = some found) :
    host.isFile found = true ∧ found.isAbsolute = true ∧
    (Path.AreNames found.pieces.tail ↔ specifier.NamesPackage → specifier.IsTidy ∨
      ∀ ancestor ∈ directory.ancestors,
        found ∉ triedAsWritten ((ancestor.join "node_modules".toList).join specifier) extensions
          specifier.isDirectoryOnly) := by
  have absolute := isAbsolute_of_locate normal.absolute located
  rcases locate_cases located with ⟨notNamed, atPath⟩ | ⟨named, ancestor, ancestor_mem, inPackages⟩
  · have file := isFile_of_moduleAt? atPath
    have target := Path.isNormal_absoluteFrom normal.absolute specifier
    have foundNormal := isNormal_of_moduleAt? noSlash target atPath
    refine ⟨file, absolute, iff_of_true (areNames_of_isNormal_of_isFile foundNormal file) ?_⟩
    intro named
    exact absurd named notNamed
  · have file := isFile_of_moduleAt? inPackages
    refine ⟨file, absolute, ?_, ?_⟩
    · intro all _
      by_contra untidy
      rw [not_or] at untidy
      apply untidy.2
      intro other other_mem asWritten
      apply untidy.1
      have packages := isNormal_packages normal other_mem
      exact (areNames_of_mem_triedAsWritten_iff packages named noSlash asWritten).mp all
    · intro tidyOrCleaned
      have packages := isNormal_packages normal ancestor_mem
      rcases mem_triedAsWritten_or_isNormal (Path.isAbsolute_join packages.absolute specifier)
        noSlash inPackages with asWritten | foundNormal
      · rcases tidyOrCleaned named with tidy | cleaned
        · exact (areNames_of_mem_triedAsWritten_iff packages named noSlash asWritten).mpr tidy
        · exact absurd asWritten (cleaned ancestor ancestor_mem)
      · exact areNames_of_isNormal_of_isFile foundNormal file

/-- A package with one module. -/
def packageHost : Host where
  tree := ⟨[("node_modules".toList, .directory [
    ("p".toList, .directory [("m.js".toList, .file (some []))])])]⟩
  directory := ⟨[], 0⟩
  nodeEnv := none

theorem areNames_of_locate_in_packageHost :
    packageHost.locate "p/m".toList "/".toList [".js".toList] =
      some "/node_modules/p/m.js".toList ∧
    Path.AreNames (Path.pieces "/node_modules/p/m.js".toList).tail := by
  have located : packageHost.locate "p/m".toList "/".toList [".js".toList] =
      some "/node_modules/p/m.js".toList := by decide
  have names := areNames_of_locate_iff ⟨by decide, by decide⟩ (by decide) located
  have tidy : Specifier.IsTidy "p/m".toList := by
    unfold Specifier.IsTidy Path.AreNames
    decide
  exact ⟨located, names.2.2.mpr fun _ => Or.inl tidy⟩

/-- A module of a package may be found by a path with a dot in it. -/
theorem not_forall_areNames_of_locate :
    ¬∀ (host : Host) (directory found : Path) (specifier : Specifier) (extensions : List Text),
      directory.IsNormal → (∀ ending ∈ extensions, '/' ∉ ending) →
      host.locate specifier directory extensions = some found →
      host.isFile found = true ∧ found.isAbsolute = true ∧
        Path.AreNames found.pieces.tail := by
  intro always
  have all := always packageHost "/".toList "/node_modules/p/./m.js".toList "p/./m".toList
    [".js".toList] ⟨by decide, by decide⟩ (by decide) (by decide)
  have isName := all.2.2 ['.'] (by decide)
  exact isName.ne_self rfl

end Host

end ImportResolution
