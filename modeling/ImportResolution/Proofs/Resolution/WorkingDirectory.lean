import ImportResolution.Proofs.Options.WorkingDirectory
import ImportResolution.Proofs.Resolution.Chain

/-!
# Resolution and the working directory

Resolution looks at the working directory twice: settings are normalized in it, and the
importing file is taken from it. Written in full, the settings and the file say the same
from every directory (`Settings.writtenIn`), so a resolution can be moved
(`Host.resolve_inDirectory`). What remains of the working directory in the options is
absolute, and nothing relative reaches the file tree.
-/

namespace ImportResolution

variable {host : Host} {directory : WorkingDirectory} {current file : Path}

/-- The settings with their base directory written in full, as it is seen from `current`. -/
def Settings.writtenIn (current : Path) (settings : Settings) : Settings :=
  match settings.cwd with
  | none => settings.setCwd (.directory current)
  | some (.directory path) => settings.setCwd (.directory (current.absoluteFrom path))
  | some .packageJson => settings

namespace Options

variable {settings : Settings}

/-- Settings whose base directory is written in full become the same options elsewhere. -/
theorem ofSettings_writtenIn {other : Path} (here : host.currentDirectory = .ok current)
    (there : (host.inDirectory directory).currentDirectory = .ok other)
    (currentNormal : current.IsNormal) (named : settings.cwd ≠ some .packageJson) :
    ofSettings host settings file =
      ofSettings (host.inDirectory directory) (settings.writtenIn current)
        (current.absoluteFrom file) := by
  rw [ofSettings_eq_fromBase here, ofSettings_eq_fromBase there, fromBase_inDirectory]
  unfold Settings.writtenIn
  cases chosen : settings.cwd with
  | none =>
      simp only [baseDirectory, Settings.setCwd]
      rw [Path.absoluteFrom_of_isNormal other currentNormal]
      rfl
  | some base =>
      cases base with
      | directory path =>
          have pathNormal := Path.isNormal_absoluteFrom currentNormal.absolute path
          simp only [baseDirectory, Settings.setCwd]
          rw [Path.absoluteFrom_of_isNormal other pathNormal]
          rfl
      | packageJson => exact absurd chosen named

end Options

namespace Host

variable {options : Options} {specifier : Specifier}

theorem importBase_of_currentDirectory (here : host.currentDirectory = .ok current) :
    host.importBase = current := by
  rw [importBase, here]

/-- The importing file is taken from an absolute directory once there are options. -/
theorem isAbsolute_importBase_of_ofSettings {settings : Settings}
    (normalized : Options.ofSettings host settings file = .ok options) :
    host.importBase.isAbsolute = true := by
  rcases Options.exists_of_ofSettings normalized with ⟨current, here, -⟩
  rw [importBase_of_currentDirectory here]
  exact isAbsolute_of_currentDirectory here

/-- A relative specifier is answered before the settings are looked at. -/
theorem resolve_of_isRelative (relative : specifier.isRelative = true) (host : Host)
    (settings : Settings) (file : Path) :
    host.resolve settings specifier file = .ok (.unchanged specifier) := by
  simp [resolve, relative]

theorem resolve_of_ofSettings {settings : Settings}
    (normalized : Options.ofSettings host settings file = .ok options) :
    host.resolve settings specifier file = .ok (host.resolveWith options specifier file) := by
  cases relative : specifier.isRelative with
  | true => rw [resolve_of_isRelative relative, resolveWith, Options.resolve_of_isRelative relative]
  | false =>
      simp only [resolve, relative, normalized, Bool.false_eq_true, if_false]
      rfl

theorem absoluteFrom_importBase_inDirectory (absolute : file.isAbsolute) :
    (host.inDirectory directory).importBase.absoluteFrom file =
      host.importBase.absoluteFrom file := by
  rw [Path.absoluteFrom_of_isAbsolute _ absolute, Path.absoluteFrom_of_isAbsolute _ absolute]

/-- With absolute roots an absolute file has the same imports wherever the program runs. -/
theorem resolveWith_inDirectory
    (rootsAbsolute : ∀ root ∈ options.root, root.isAbsolute) (fileAbsolute : file.isAbsolute) :
    (host.inDirectory directory).resolveWith options specifier file =
      host.resolveWith options specifier file := by
  have sameImporter : ∀ locator : Locator,
      options.resolve locator (host.inDirectory directory).importBase specifier file =
        options.resolve locator host.importBase specifier file := by
    intro locator
    simp only [Options.resolve, absoluteFrom_importBase_inDirectory fileAbsolute]
  rw [resolveWith, resolveWith, sameImporter]
  apply Options.resolve_congr
  intro query asked
  apply locate_inDirectory
  rcases asked with importing | isRoot
  · rw [importing, Path.absoluteFrom_of_isAbsolute _ fileAbsolute]
    exact Path.isAbsolute_parentOrSelf (Path.isNormal_clean fileAbsolute).absolute
  · exact rootsAbsolute query.directory isRoot

/-- The importing file may be named in full. -/
theorem resolveWith_absoluteFrom (here : host.currentDirectory = .ok current) :
    host.resolveWith options specifier (current.absoluteFrom file) =
      host.resolveWith options specifier file := by
  have fileNormal := Path.isNormal_absoluteFrom (isAbsolute_of_currentDirectory here) file
  simp only [resolveWith, Options.resolve, importBase_of_currentDirectory here,
    Path.absoluteFrom_of_isNormal current fileNormal]

/--
A resolution has the same outcome, or the same error, from any other directory once the
importing file and the base directory of the settings are written in full.
-/
theorem resolve_inDirectory {other : Path} (here : host.currentDirectory = .ok current)
    (there : (host.inDirectory directory).currentDirectory = .ok other)
    (currentNormal : current.IsNormal) (settings : Settings)
    (named : settings.cwd ≠ some .packageJson) (specifier : Specifier) (file : Path) :
    host.resolve settings specifier file =
      (host.inDirectory directory).resolve (settings.writtenIn current) specifier
        (current.absoluteFrom file) := by
  cases relative : specifier.isRelative with
  | true => rw [resolve_of_isRelative relative, resolve_of_isRelative relative]
  | false =>
      simp only [resolve, relative, Bool.false_eq_true, if_false]
      apply bind_congr_of_ok
      · exact Options.ofSettings_writtenIn here there currentNormal named
      · intro options normalized
        have rootsAbsolute := (Options.isAbsolute_of_ofSettings normalized).2
        have fileAbsolute := Path.isAbsolute_absoluteFrom currentNormal.absolute file
        rw [resolveWith_inDirectory rootsAbsolute fileAbsolute, resolveWith_absoluteFrom here]

/-- A directory with a root in it, and another one in which the program runs. -/
def neighborHost : Host where
  tree := ⟨[
    ("d".toList, .directory [("r".toList, .directory [("x.js".toList, .file (some []))])]),
    ("w".toList, .directory [])]⟩
  directory := ⟨["w".toList], 0⟩
  nodeEnv := none

/-- Settings for the directory beside the one in which the program runs. -/
def neighborSettings : Settings := { cwd := some (.directory "../d".toList), root := ["r".toList] }

theorem resolve_inDirectory_in_neighborHost :
    neighborHost.resolve neighborSettings "x".toList "f".toList =
      (neighborHost.inDirectory ⟨["d".toList], 0⟩).resolve
        (neighborSettings.setCwd (.directory "/d".toList)) "x".toList "/w/f".toList ∧
    (neighborHost.resolve neighborSettings "x".toList "f".toList).toOption.map
        Outcome.resolution = some (.resolved "../d/r/x".toList .root) := by
  have here : neighborHost.currentDirectory = .ok "/w".toList := rfl
  have there : (neighborHost.inDirectory ⟨["d".toList], 0⟩).currentDirectory =
      .ok "/d".toList := rfl
  refine ⟨?_, by decide +kernel⟩
  exact resolve_inDirectory here there ⟨by decide, by decide⟩ neighborSettings
    (by simp [neighborSettings]) "x".toList "f".toList

end Host

end ImportResolution
