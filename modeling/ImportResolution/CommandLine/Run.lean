import ImportResolution.CommandLine.Arguments
import ImportResolution.CommandLine.Report
import ImportResolution.Settings.Reader

/-!
# Running a command

A command ends with an exit code and what it has printed: zero when a specifier is
resolved, one when it is not or when the configuration fails, two when the
arguments cannot be used. Only answers are printed here; complaints go elsewhere.
-/

namespace ImportResolution

namespace CommandLine

/-- How a command ends. -/
structure Exit where
  code : Nat
  output : Text
  deriving DecidableEq, Repr

/-- The version of the program. -/
def versionText : Text := "modpath 0.2.0".toList

/-- The directory from which the arguments are taken. -/
def workingDirectory (host : Host) (arguments : ResolveArguments) : Path :=
  match arguments.cwd, host.currentDirectory with
  | some cwd, _ => cwd
  | none, .ok current => current
  | none, .error _ => ['.']

/-- The settings that the arguments name, with the working directory where they have none. -/
def settings (host : Host) (arguments : ResolveArguments) :
    Except ConfigError Settings := do
  let cwd := workingDirectory host arguments
  let settings ←
    match arguments.config with
    | some path => Settings.load host (cwd.join path)
    | none => pure {}
  match settings.cwd with
  | some _ => pure settings
  | none => pure (settings.setCwd (.directory cwd))

/-- The report on the specifier of the arguments. -/
def report (host : Host) (arguments : ResolveArguments) : Except ConfigError Report := do
  let settings ← settings host arguments
  let file := (workingDirectory host arguments).join arguments.file
  let options ← Options.ofSettings host settings file
  let options := if arguments.production then options.setMode .production else options
  let outcome := host.resolveWith options arguments.specifier file
  pure ⟨arguments.specifier, file, options.mode, outcome.resolution, outcome.warnings⟩

/-- How a command ends in the surroundings of a host. -/
def Command.run (host : Host) : Command → Exit
  | .version => ⟨0, versionText ++ ['\n']⟩
  | .resolve arguments =>
      match report host arguments with
      | .error _ => ⟨1, []⟩
      | .ok report =>
          ⟨if report.resolution.isResolved then 0 else 1, report.text arguments.json⟩

/-- How the program ends; `environment` may say that the mode is production. -/
def run (host : Host) (environment : Option Text) (arguments : List Text) : Exit :=
  match parse environment arguments with
  | .ok command => command.run host
  | .error .version => ⟨0, versionText ++ ['\n']⟩
  | .error .help => ⟨0, []⟩
  | .error .usage => ⟨2, []⟩

end CommandLine

end ImportResolution
