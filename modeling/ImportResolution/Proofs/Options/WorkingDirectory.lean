import ImportResolution.Options.OfSettings
import ImportResolution.Proofs.Outcome
import ImportResolution.Proofs.Glob.Expansion
import ImportResolution.Proofs.Host.WorkingDirectory

/-!
# Options and the working directory

Settings become options in two steps: they stand for a base directory, and everything
relative in them is taken from there (`Options.fromBase`). The second step does not look
at the working directory, since a base directory is absolute, and so are the roots that
are taken from it or matched by a glob pattern.
-/

namespace ImportResolution

/-! ## Expanding a glob pattern -/

namespace Glob

variable {host : Host} {directory : WorkingDirectory}

theorem reachedAt_inDirectory {path : Path} (absolute : path.isAbsolute) :
    reachedAt (host.inDirectory directory) path = reachedAt host path := by
  rw [reachedAt, Host.isDirectory_inDirectory absolute, reachedAt]

theorem reachedEntry_inDirectory {path : Path} (absolute : path.isAbsolute)
    (entry : Text × Node) :
    reachedEntry (host.inDirectory directory) path entry = reachedEntry host path entry := by
  rw [reachedEntry, reachedAt_inDirectory (Path.isAbsolute_join absolute entry.1), reachedEntry]

theorem expandFrom_inDirectory {fuel : Nat} {segments : List Segment} {reached : Reached}
    (absolute : reached.path.isAbsolute) :
    expandFrom (host.inDirectory directory) fuel segments reached =
      expandFrom host fuel segments reached := by
  induction fuel generalizing segments reached with
  | zero => rfl
  | succ fuel ih =>
      have entryAbsolute : ∀ entry : Text × Node,
          (reachedEntry host reached.path entry).path.isAbsolute := by
        intro entry
        rw [reachedEntry_path]
        exact Path.isAbsolute_join absolute entry.1
      have specialAbsolute : ∀ name : Text,
          (reachedAt host (reached.path.join name)).path.isAbsolute :=
        Path.isAbsolute_join absolute
      cases segments with
      | nil => rfl
      | cons segment rest =>
          cases segment with
          | literal name =>
              have joined := Path.isAbsolute_join absolute name
              simp only [expandFrom, Host.hasEntry_inDirectory joined,
                reachedAt_inDirectory joined]
              rw [ih]
              exact joined
          -- Every other segment looks at the entries, all of which lie below an absolute path.
          | _ =>
              simp only [expandFrom, Host.entries_inDirectory absolute,
                reachedEntry_inDirectory absolute,
                reachedAt_inDirectory (Path.isAbsolute_join absolute _), ih (entryAbsolute _),
                ih (specialAbsolute _)]

theorem directories_inDirectory (pattern : Path) :
    directories (host.inDirectory directory) pattern = directories host pattern := by
  have root : (⟨['/'], true⟩ : Reached).path.isAbsolute := rfl
  unfold directories
  congr 1
  funext segments
  rw [expandFrom_inDirectory root]
  congr 1
  apply List.filter_congr
  intro path path_mem
  exact Host.isDirectory_inDirectory (isAbsolute_of_mem_expandFrom root path_mem)

theorem isAbsolute_of_mem_directories {pattern path : Path} {found : List Path}
    (expanded : directories host pattern = .ok found) (path_mem : path ∈ found) :
    path.isAbsolute = true := by
  rcases exists_of_bind_pure_eq_ok expanded with ⟨segments, -, rfl⟩
  exact isAbsolute_of_mem_expandFrom rfl (List.mem_of_mem_filter path_mem)

end Glob

/-! ## Options -/

namespace Options

variable {host : Host} {directory : WorkingDirectory} {cwd : Path} {settings : Settings}

theorem packageDirectory?_inDirectory {start : Path} (absolute : start.isAbsolute) :
    packageDirectory? (host.inDirectory directory) start = packageDirectory? host start := by
  apply List.find?_congr
  intro above above_mem
  have aboveAbsolute := Path.isAbsolute_of_mem_ancestors absolute above_mem
  exact Host.isFile_inDirectory (Path.isAbsolute_join aboveAbsolute packageFile)

theorem entryDirectories_inDirectory (entry : Text) :
    entryDirectories (host.inDirectory directory) cwd entry = entryDirectories host cwd entry := by
  rw [entryDirectories, Glob.directories_inDirectory, entryDirectories]

theorem rootDirectories_inDirectory (entries : List Text) :
    rootDirectories (host.inDirectory directory) cwd entries =
      rootDirectories host cwd entries := by
  induction entries with
  | nil => rfl
  | cons entry entries ih =>
      rw [rootDirectories, entryDirectories_inDirectory, ih, rootDirectories]

theorem isAbsolute_of_mem_entryDirectories {entry : Text} {roots : List Path} {root : Path}
    (absolute : cwd.isAbsolute) (expanded : entryDirectories host cwd entry = .ok roots)
    (root_mem : root ∈ roots) : root.isAbsolute = true := by
  unfold entryDirectories at expanded
  dsimp only at expanded
  split at expanded
  · split at expanded
    · rename_i found read
      rw [Except.ok.injEq] at expanded
      exact Glob.isAbsolute_of_mem_directories read (expanded ▸ root_mem)
    · simp at expanded
  · rw [Except.ok.injEq] at expanded
    subst expanded
    rw [List.mem_singleton.mp root_mem]
    exact Path.isAbsolute_absoluteFrom absolute entry

theorem isAbsolute_of_mem_rootDirectories {entries : List Text} {roots : List Path} {root : Path}
    (absolute : cwd.isAbsolute) (expanded : rootDirectories host cwd entries = .ok roots)
    (root_mem : root ∈ roots) : root.isAbsolute = true := by
  induction entries generalizing roots with
  | nil =>
      rw [rootDirectories, Except.ok.injEq] at expanded
      simp [← expanded] at root_mem
  | cons entry entries ih =>
      rcases exists_of_bind_eq_ok expanded with ⟨found, first, expanded⟩
      rcases exists_of_bind_pure_eq_ok expanded with ⟨others, rest, rfl⟩
      rcases List.mem_append.mp root_mem with inFirst | inRest
      · exact isAbsolute_of_mem_entryDirectories absolute first inFirst
      · exact ih rest inRest

theorem isAbsolute_of_packageDirectory? {start found : Path} (absolute : start.isAbsolute)
    (nearest : packageDirectory? host start = some found) : found.isAbsolute = true :=
  Path.isAbsolute_of_mem_ancestors absolute (List.mem_of_find?_eq_some nearest)

theorem baseDirectory_inDirectory {current file : Path} (absolute : file.isAbsolute)
    (base : Option BaseDirectory) :
    baseDirectory (host.inDirectory directory) current file base =
      baseDirectory host current file base := by
  have nearest : file.parent?.bind (packageDirectory? (host.inDirectory directory)) =
      file.parent?.bind (packageDirectory? host) := by
    cases parent : file.parent? with
    | none => rfl
    | some above =>
        exact packageDirectory?_inDirectory (Path.isAbsolute_of_parent? absolute parent)
  unfold baseDirectory
  split
  · rfl
  · rfl
  · rw [nearest]

theorem isAbsolute_baseDirectory {current file : Path} (currentAbsolute : current.isAbsolute)
    (fileAbsolute : file.isAbsolute) (base : Option BaseDirectory) :
    (baseDirectory host current file base).isAbsolute = true := by
  unfold baseDirectory
  split
  · exact currentAbsolute
  · exact Path.isAbsolute_absoluteFrom currentAbsolute _
  · cases nearest : file.parent?.bind (packageDirectory? host) with
    | none => exact currentAbsolute
    | some found =>
        rcases Option.bind_eq_some_iff.mp nearest with ⟨above, parent, holds⟩
        exact isAbsolute_of_packageDirectory? (Path.isAbsolute_of_parent? fileAbsolute parent) holds

/-- A base directory that is the same wherever the host is: named in full, or found. -/
def IsFixedBase (host : Host) (file : Path) : BaseDirectory → Prop
  | .directory path => path.isAbsolute
  | .packageJson => (file.parent?.bind (packageDirectory? host)).isSome

theorem IsFixedBase.baseDirectory_eq {file : Path} {base : BaseDirectory}
    (fixed : IsFixedBase host file base) (current other : Path) :
    baseDirectory host current file (some base) = baseDirectory host other file (some base) := by
  cases base with
  | directory path =>
      have absolute : path.isAbsolute := fixed
      simp only [baseDirectory, Path.absoluteFrom_of_isAbsolute _ absolute]
  | packageJson =>
      rcases Option.isSome_iff_exists.mp fixed with ⟨found, nearest⟩
      simp only [baseDirectory, nearest, Option.getD_some]

/-- The options that settings stand for when their relative paths are taken from a directory. -/
def fromBase (host : Host) (settings : Settings) (cwd : Path) : Except ConfigError Options := do
  let root ← rootDirectories host cwd settings.root
  let rules ← aliasRules settings.aliases
  let extensions := settings.extensions.getD defaultExtensions
  pure {
    cwd
    extensions
    stripExtensions := settings.stripExtensions.getD extensions
    root
    aliases := rules
    imageTypes := settings.imageTypes.getD defaultImageTypes
    imageScale := settings.imageScale.getD defaultImageScale
    mode := Mode.ofEnvironment host.nodeEnv }

theorem ofSettings_eq_fromBase {current file : Path}
    (launched : host.currentDirectory = .ok current) :
    ofSettings host settings file =
      fromBase host settings
        (baseDirectory host current (current.absoluteFrom file) settings.cwd) := by
  rw [ofSettings, launched]
  rfl

/-- There are options only in a directory that exists, from which the base directory is taken. -/
theorem exists_of_ofSettings {file : Path} {options : Options}
    (normalized : ofSettings host settings file = .ok options) :
    ∃ current, host.currentDirectory = .ok current ∧
      fromBase host settings
        (baseDirectory host current (current.absoluteFrom file) settings.cwd) = .ok options := by
  cases launched : host.currentDirectory with
  | error error => simp [ofSettings, launched] at normalized
  | ok current =>
      rw [ofSettings_eq_fromBase launched] at normalized
      exact ⟨current, rfl, normalized⟩

theorem fromBase_inDirectory :
    fromBase (host.inDirectory directory) settings cwd = fromBase host settings cwd := by
  rw [fromBase, rootDirectories_inDirectory, fromBase]
  rfl

/-- Settings that stand for one base directory become the same options wherever the host is. -/
theorem ofSettings_inDirectory {current other file : Path}
    (here : host.currentDirectory = .ok current)
    (there : (host.inDirectory directory).currentDirectory = .ok other)
    (fileAbsolute : file.isAbsolute)
    (sameBase : baseDirectory host current file.clean settings.cwd =
      baseDirectory host other file.clean settings.cwd) :
    ofSettings host settings file = ofSettings (host.inDirectory directory) settings file := by
  rw [ofSettings_eq_fromBase here, ofSettings_eq_fromBase there, fromBase_inDirectory,
    Path.absoluteFrom_of_isAbsolute current fileAbsolute,
    Path.absoluteFrom_of_isAbsolute other fileAbsolute,
    baseDirectory_inDirectory (Path.isNormal_clean fileAbsolute).absolute, sameBase]

theorem isAbsolute_of_fromBase {options : Options} (absolute : cwd.isAbsolute)
    (normalized : fromBase host settings cwd = .ok options) :
    options.cwd.isAbsolute = true ∧ ∀ root ∈ options.root, root.isAbsolute := by
  rcases exists_of_bind_eq_ok normalized with ⟨roots, expanded, normalized⟩
  rcases exists_of_bind_pure_eq_ok normalized with ⟨rules, -, rfl⟩
  refine ⟨absolute, ?_⟩
  intro root root_mem
  exact isAbsolute_of_mem_rootDirectories absolute expanded root_mem

/-- Whatever the settings are, the directories that they stand for are absolute. -/
theorem isAbsolute_of_ofSettings {file : Path} {options : Options}
    (normalized : ofSettings host settings file = .ok options) :
    options.cwd.isAbsolute = true ∧ ∀ root ∈ options.root, root.isAbsolute := by
  rcases exists_of_ofSettings normalized with ⟨current, launched, taken⟩
  have currentAbsolute := Host.isAbsolute_of_currentDirectory launched
  have fileAbsolute := Path.isAbsolute_absoluteFrom currentAbsolute file
  apply isAbsolute_of_fromBase ?_ taken
  exact isAbsolute_baseDirectory currentAbsolute fileAbsolute settings.cwd

end Options

end ImportResolution
