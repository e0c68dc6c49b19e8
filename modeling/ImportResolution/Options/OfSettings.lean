import ImportResolution.Glob.Expansion
import ImportResolution.Options.Basic
import ImportResolution.Settings.Basic

/-!
# Options from settings

Settings become options for one importing file. The working directory is asked for
first, then the roots are expanded, then the alias rules are compiled, each in
order, and the first failure decides.
-/

namespace ImportResolution

namespace Options

/-- The nearest directory, from `start` upwards, that holds a package file. -/
def packageDirectory? (host : Host) (start : Path) : Option Path :=
  start.ancestors.find? fun directory => host.isFile (directory.join packageFile)

/-- The directory from which relative paths of the settings are taken. -/
def baseDirectory (host : Host) (current file : Path) : Option BaseDirectory → Path
  | none => current
  | some (.directory path) => Path.absoluteFrom current path
  | some .packageJson =>
      ((file.parent?.bind (packageDirectory? host)).getD current)

/-- The directories that one entry of the roots stands for. -/
def entryDirectories (host : Host) (cwd : Path) (entry : Text) : Except ConfigError (List Path) :=
  let path := Path.absoluteFrom cwd entry
  if Glob.hasWildcard entry then
    match Glob.directories host path with
    | .ok directories => .ok directories
    | .error error => .error (.invalidRootGlob entry error)
  else .ok [path]

/-- The directories that the roots stand for, in order. -/
def rootDirectories (host : Host) (cwd : Path) : List Text → Except ConfigError (List Path)
  | [] => .ok []
  | entry :: entries => do
      let directories ← entryDirectories host cwd entry
      let others ← rootDirectories host cwd entries
      pure (directories ++ others)

/-- The rule that one entry of the aliases stands for. -/
def aliasRule (key : Text) (value : Json) : Except ConfigError AliasRule :=
  match value.asString? with
  | some replacement => AliasRule.ofEntry key replacement
  | none => .error (.other ("alias `".toList ++ key ++ "` must map to a string".toList))

/-- The rules that the aliases stand for, in order. -/
def aliasRules : Json.Members Json → Except ConfigError (List AliasRule)
  | [] => .ok []
  | (key, value) :: entries => do
      let rule ← aliasRule key value
      let rules ← aliasRules entries
      pure (rule :: rules)

/-- The options that settings stand for when `file` imports. -/
def ofSettings (host : Host) (settings : Settings) (file : Path) :
    Except ConfigError Options :=
  match host.currentDirectory with
  | .error error => .error (.io error)
  | .ok current => do
      let cwd := baseDirectory host current (Path.absoluteFrom current file) settings.cwd
      let root ← rootDirectories host cwd settings.root
      let rules ← aliasRules settings.aliases
      let extensions := settings.extensions.getD defaultExtensions
      pure {
        cwd
        extensions
        stripExtensions := settings.stripExtensions.getD extensions
        root
        aliases := rules
        imageTypes := settings.imageTypes.getD defaultImageTypes
        imageScale := settings.imageScale.getD defaultImageScale
        mode := Mode.ofEnvironment host.nodeEnv }

end Options

end ImportResolution
