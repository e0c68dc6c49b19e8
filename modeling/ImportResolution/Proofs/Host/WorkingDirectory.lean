import ImportResolution.Proofs.Locator.Files
import Mathlib.Data.List.Find

/-!
# Hosts and their working directories

A host can be seen from any of its directories (`Host.inDirectory`). Whatever is asked
by an absolute path has the same answer everywhere: this goes through the questions to
the file tree and through every step of the locator (`Host.locate_inDirectory`).
-/

namespace ImportResolution

/-- The question where an absolute path leads does not depend on the working directory. -/
theorem FileTree.find_of_isAbsolute (tree : FileTree) {path : Path} (absolute : path.isAbsolute)
    (directory other : WorkingDirectory) (lastLink : LastLink) :
    tree.find directory lastLink path = tree.find other lastLink path := by
  simp [find, absolute]

namespace Host

/-- The host seen from another working directory. -/
def inDirectory (host : Host) (directory : WorkingDirectory) : Host :=
  { host with directory }

variable {host : Host} {directory : WorkingDirectory} {path : Path}

/-! ## The tree -/

theorem find_inDirectory (absolute : path.isAbsolute) :
    (host.inDirectory directory).find path = host.find path :=
  FileTree.find_of_isAbsolute host.tree absolute directory host.directory .followed

theorem isFile_inDirectory (absolute : path.isAbsolute) :
    (host.inDirectory directory).isFile path = host.isFile path := by
  rw [isFile, find_inDirectory absolute, isFile]

theorem isDirectory_inDirectory (absolute : path.isAbsolute) :
    (host.inDirectory directory).isDirectory path = host.isDirectory path := by
  rw [isDirectory, find_inDirectory absolute, isDirectory]

theorem hasEntry_inDirectory (absolute : path.isAbsolute) :
    (host.inDirectory directory).hasEntry path = host.hasEntry path := by
  have same := FileTree.find_of_isAbsolute host.tree absolute directory host.directory .kept
  simp only [hasEntry, inDirectory, same]

theorem readText_inDirectory (absolute : path.isAbsolute) :
    (host.inDirectory directory).readText path = host.readText path := by
  rw [readText, find_inDirectory absolute, readText]

theorem entries_inDirectory (absolute : path.isAbsolute) :
    (host.inDirectory directory).entries path = host.entries path := by
  rw [entries, find_inDirectory absolute, entries]
  rfl

theorem isAbsolute_of_currentDirectory {current : Path}
    (launched : host.currentDirectory = .ok current) : current.isAbsolute = true := by
  unfold currentDirectory at launched
  split at launched
  · rw [← Except.ok.inj launched]
    rfl
  · simp at launched

/-! ## The locator -/

variable {extensions : List Text}

theorem fileAt?_inDirectory (absolute : path.isAbsolute) :
    (host.inDirectory directory).fileAt? path extensions = host.fileAt? path extensions := by
  rw [fileAt?_eq_find?, fileAt?_eq_find?]
  apply List.find?_congr
  intro candidate candidate_mem
  rcases mem_tried.mp candidate_mem with rfl | ⟨ending, -, rfl⟩
  · exact isFile_inDirectory absolute
  · exact isFile_inDirectory (Path.isAbsolute_append absolute ending)

theorem indexOf?_inDirectory (absolute : path.isAbsolute) :
    (host.inDirectory directory).indexOf? path extensions = host.indexOf? path extensions := by
  apply List.find?_congr
  intro index index_mem
  rcases List.mem_map.mp index_mem with ⟨ending, -, rfl⟩
  exact isFile_inDirectory (Path.isAbsolute_join absolute _)

theorem packageMain?_inDirectory (absolute : path.isAbsolute) :
    (host.inDirectory directory).packageMain? path = host.packageMain? path := by
  rw [packageMain?, readText_inDirectory (Path.isAbsolute_join absolute packageFile),
    packageMain?]

theorem mainOf?_inDirectory (absolute : path.isAbsolute) :
    (host.inDirectory directory).mainOf? path extensions = host.mainOf? path extensions := by
  rw [mainOf?, packageMain?_inDirectory absolute, mainOf?]
  congr 1
  funext main
  have target := Path.isAbsolute_absoluteFrom absolute main
  simp only [fileAt?_inDirectory target, isDirectory_inDirectory target,
    indexOf?_inDirectory target]

theorem directoryAt?_inDirectory (absolute : path.isAbsolute) :
    (host.inDirectory directory).directoryAt? path extensions =
      host.directoryAt? path extensions := by
  rw [directoryAt?, isDirectory_inDirectory absolute, mainOf?_inDirectory absolute,
    indexOf?_inDirectory absolute, directoryAt?]

theorem moduleAt?_inDirectory (absolute : path.isAbsolute) (directoryOnly : Bool) :
    (host.inDirectory directory).moduleAt? path extensions directoryOnly =
      host.moduleAt? path extensions directoryOnly := by
  rw [moduleAt?, fileAt?_inDirectory absolute, directoryAt?_inDirectory absolute, moduleAt?]

theorem packageAt?_inDirectory {specifier : Specifier} (absolute : path.isAbsolute) :
    (host.inDirectory directory).packageAt? specifier path extensions =
      host.packageAt? specifier path extensions := by
  have packages := Path.isAbsolute_join absolute "node_modules".toList
  simp only [packageAt?, isDirectory_inDirectory packages,
    moduleAt?_inDirectory (Path.isAbsolute_join packages specifier)]

/-- What is asked from an absolute directory does not depend on the working directory. -/
theorem locate_inDirectory {specifier : Specifier} (absolute : path.isAbsolute) :
    (host.inDirectory directory).locate specifier path extensions =
      host.locate specifier path extensions := by
  have inPackages : (path.ancestors.findSome? fun ancestor =>
      (host.inDirectory directory).packageAt? specifier ancestor extensions) =
      path.ancestors.findSome? fun ancestor =>
        host.packageAt? specifier ancestor extensions := by
    rw [← List.head?_filterMap, ← List.head?_filterMap, List.filterMap_congr]
    intro ancestor ancestor_mem
    exact packageAt?_inDirectory (Path.isAbsolute_of_mem_ancestors absolute ancestor_mem)
  simp only [locate, inPackages,
    moduleAt?_inDirectory (Path.isAbsolute_absoluteFrom absolute specifier)]

end Host

end ImportResolution
