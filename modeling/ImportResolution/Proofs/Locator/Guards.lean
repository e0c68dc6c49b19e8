import ImportResolution.Proofs.FileTree.Walk
import ImportResolution.Proofs.Locator.Files

/-!
# Directories that are asked for first

The locator asks whether there is a directory before it looks for an index, for a package
file or for packages in it. The question saves work and decides nothing: whatever is found
below a directory as written shows that it is there. So each step of the locator can be read
without it, the step for a directory (`Host.directoryAt?_eq_or`), for its main entry
(`Host.mainOf?_eq_bind`) and for packages (`Host.packageAt?_eq_moduleAt?`).
-/

namespace ImportResolution

namespace Host

variable {host : Host} {directory below found : Path} {specifier : Specifier}
  {extensions : List Text}

/-! ## Nothing stands below what is no directory -/

section Below

variable (absolute : directory.isAbsolute) (relative : below.isAbsolute = false)
  (noDirectory : host.isDirectory directory = false)
include absolute noDirectory

section Relative

include relative

theorem isFile_join_eq_false : host.isFile (directory.join below) = false := by
  rw [Bool.eq_false_iff]
  intro file
  unfold isFile at file
  split at file
  · rename_i located
    simp [isDirectory_of_find_join absolute relative located] at noDirectory
  · contradiction

theorem isDirectory_join_eq_false : host.isDirectory (directory.join below) = false := by
  rw [Bool.eq_false_iff]
  intro isDirectory
  unfold Host.isDirectory at isDirectory
  split at isDirectory
  · rename_i located
    simp [isDirectory_of_find_join absolute relative located] at noDirectory
  · contradiction

end Relative

/-- A main entry has been read in a directory. -/
theorem packageMain?_eq_none : host.packageMain? directory = none := by
  have unreadable : (host.readText (directory.join packageFile)).toOption = none := by
    unfold readText
    cases located : host.find (directory.join packageFile) with
    | error error => rfl
    | ok place => simp [isDirectory_of_find_join absolute rfl located] at noDirectory
  rw [packageMain?, unreadable]
  rfl

theorem indexOf?_eq_none : host.indexOf? directory extensions = none := by
  rw [Option.eq_none_iff_forall_ne_some]
  intro found located
  rcases exists_ending_of_indexOf? located with ⟨ending, -, rfl⟩
  have noFile : host.isFile (directory.join ("index".toList ++ ending)) = false :=
    isFile_join_eq_false absolute rfl noDirectory
  rw [isFile_of_indexOf? located] at noFile
  contradiction

include relative in
theorem moduleAt?_join_eq_none (nonempty : below ≠ []) (directoryOnly : Bool) :
    host.moduleAt? (directory.join below) extensions directoryOnly = none := by
  rw [Option.eq_none_iff_forall_ne_some]
  intro found located
  rcases moduleAt?_cases located with ⟨-, asFile⟩ | asDirectory
  · have isFile := isFile_of_fileAt? asFile
    rcases mem_tried.mp (mem_tried_of_fileAt? asFile) with rfl | ⟨ending, -, rfl⟩
    · simp [isFile_join_eq_false absolute relative noDirectory] at isFile
    · have stillRelative : Path.isAbsolute (below ++ ending) = false := by
        rw [Path.isAbsolute_append_of_ne_nil nonempty, relative]
      rw [Path.join_append directory nonempty relative] at isFile
      simp [isFile_join_eq_false absolute stillRelative noDirectory] at isFile
  · have notThere := isDirectory_join_eq_false absolute relative noDirectory
    simp [directoryAt?, notThere] at asDirectory

end Below

/-! ## The steps of the locator without the questions -/

theorem mainOf?_eq_bind (absolute : directory.isAbsolute) :
    host.mainOf? directory extensions =
      (host.packageMain? directory).bind fun main =>
        (host.fileAt? (directory.absoluteFrom main) extensions).or
          (host.indexOf? (directory.absoluteFrom main) extensions) := by
  unfold mainOf?
  cases host.packageMain? directory with
  | none => rfl
  | some main =>
      dsimp only [Option.bind_eq_bind, Option.bind_some]
      split
      · rfl
      · rename_i notDirectory
        have targetAbsolute := Path.isAbsolute_absoluteFrom absolute main
        rw [indexOf?_eq_none targetAbsolute (Bool.eq_false_iff.mpr notDirectory)]

theorem directoryAt?_eq_or (absolute : directory.isAbsolute) :
    host.directoryAt? directory extensions =
      (host.mainOf? directory extensions).or (host.indexOf? directory extensions) := by
  unfold directoryAt?
  split
  · rfl
  · rename_i notDirectory
    have noDirectory := Bool.eq_false_iff.mpr notDirectory
    have noMain : host.mainOf? directory extensions = none := by
      rw [mainOf?, packageMain?_eq_none absolute noDirectory]
      rfl
    rw [noMain, indexOf?_eq_none absolute noDirectory]
    rfl

/-- Looking for `node_modules` first never changes what is found in it. -/
theorem packageAt?_eq_moduleAt? (absolute : directory.isAbsolute) (nonempty : specifier ≠ [])
    (bare : specifier.kind = .bare) :
    host.packageAt? specifier directory extensions =
      host.moduleAt? ((directory.join "node_modules".toList).join specifier) extensions
        specifier.isDirectoryOnly := by
  unfold packageAt?
  dsimp only
  split
  · rfl
  · rename_i noPackages
    have packagesAbsolute := Path.isAbsolute_join absolute "node_modules".toList
    have relative := Specifier.isAbsolute_eq_false_of_bare bare
    have noDirectory := Bool.eq_false_iff.mpr noPackages
    rw [moduleAt?_join_eq_none packagesAbsolute relative noDirectory nonempty]

end Host

end ImportResolution
