import ImportResolution.CommandLine.Run
import ImportResolution.Proofs.Resolution.WorkingDirectory

/-!
# Commands and the working directory

The option `--cwd` names the directory from which the arguments of a command are taken.
The run is that of a program launched in this directory, as long as the settings stand
for the same base directory there (`CommandLine.run_withDirectory`). They do when it is
named in full or found (`Options.IsFixedBase`); a relative base directory, or one that is
looked for and not found, is taken from the directory in which the program really is.
-/

namespace ImportResolution

variable {host : Host} {directory : WorkingDirectory}

theorem Settings.load_inDirectory {path : Path} (absolute : path.isAbsolute) :
    Settings.load (host.inDirectory directory) path = Settings.load host path := by
  rw [Settings.load, Host.readText_inDirectory absolute, Settings.load]

namespace CommandLine

/-! ## Arguments -/

/-- The arguments with a working directory where they have none. -/
def ResolveArguments.withDirectory (cwd : Path) (arguments : ResolveArguments) :
    ResolveArguments :=
  { arguments with cwd := arguments.cwd.or (some cwd) }

/-- The command with a working directory where it has none. -/
def Command.withDirectory (cwd : Path) : Command → Command
  | .version => .version
  | .resolve arguments => .resolve (arguments.withDirectory cwd)

theorem readGlobal_resolve (fuel : Nat) (side : Side) (rest : List Text) :
    readGlobal (fuel + 1) side ("resolve".toList :: rest) = .ok (side, .resolve, rest) :=
  rfl

theorem readGlobal_cwd (fuel : Nat) (body : Text) (rest : List Text) :
    readGlobal (fuel + 1) {} ("--cwd".toList :: ('/' :: body) :: rest) =
      readGlobal fuel { given := [(.cwd, '/' :: body)] } rest :=
  rfl

/-- Before the name of the command, `--cwd` changes nothing but the working directory. -/
theorem parse_cwd (environment : Option Text) (body : Text) (rest : List Text) :
    parse environment ("--cwd".toList :: ('/' :: body) :: "resolve".toList :: rest) =
      (parse environment ("resolve".toList :: rest)).map (Command.withDirectory ('/' :: body)) := by
  rw [parse, parse, List.length_cons, readGlobal_cwd, List.length_cons, readGlobal_resolve,
    readGlobal_resolve]
  dsimp only [bind, Except.bind]
  cases readLocal (.file :: .config :: .production :: everywhere) 1 (rest.length + 1) {} rest with
  | error stop => rfl
  | ok inner =>
      dsimp only
      split
      · cases productionSwitch (inner.has .production) environment with
        | error stop => rfl
        | ok production =>
            have noCwd : ({} : Side).value? .cwd = none := rfl
            simp only [Except.map, pure, Except.pure, Command.withDirectory,
              ResolveArguments.withDirectory, noCwd, Option.or_none]
            rfl
      · rfl

/-! ## Runs -/

variable {location : Location} {arguments : ResolveArguments}

theorem workingDirectory_inDirectory (noCwd : arguments.cwd = none) :
    workingDirectory (host.inDirectory ⟨location, 0⟩) arguments = Path.rooted location := by
  rw [workingDirectory, noCwd]
  rfl

theorem workingDirectory_withDirectory (noCwd : arguments.cwd = none) (cwd : Path) :
    workingDirectory host (arguments.withDirectory cwd) = cwd := by
  rw [workingDirectory, ResolveArguments.withDirectory, noCwd, Option.none_or]

theorem settings_withDirectory (noCwd : arguments.cwd = none) :
    settings host (arguments.withDirectory (Path.rooted location)) =
      settings (host.inDirectory ⟨location, 0⟩) arguments := by
  rw [settings, settings, workingDirectory_withDirectory noCwd, workingDirectory_inDirectory noCwd]
  cases named : arguments.config with
  | none => simp only [ResolveArguments.withDirectory, named]
  | some path =>
      have absolute := Path.isAbsolute_join (Path.isAbsolute_rooted location) path
      simp only [ResolveArguments.withDirectory, named, Settings.load_inDirectory absolute]

theorem report_withDirectory (launched : host.directory.removed = 0) (noCwd : arguments.cwd = none)
    (sameBase : ∀ loaded, settings (host.inDirectory ⟨location, 0⟩) arguments = .ok loaded →
      Options.baseDirectory host (Path.rooted host.directory.location)
          ((Path.rooted location).absoluteFrom arguments.file) loaded.cwd =
        Options.baseDirectory host (Path.rooted location)
          ((Path.rooted location).absoluteFrom arguments.file) loaded.cwd) :
    report host (arguments.withDirectory (Path.rooted location)) =
      report (host.inDirectory ⟨location, 0⟩) arguments := by
  have fileAbsolute := Path.isAbsolute_join (Path.isAbsolute_rooted location) arguments.file
  rw [report, report, workingDirectory_withDirectory noCwd, workingDirectory_inDirectory noCwd]
  apply bind_congr_of_ok (settings_withDirectory noCwd)
  intro loaded isLoaded
  have here : host.currentDirectory = .ok (Path.rooted host.directory.location) := by
    rw [Host.currentDirectory, if_pos launched]
    rfl
  apply bind_congr_of_ok
  · exact Options.ofSettings_inDirectory here rfl fileAbsolute (sameBase loaded isLoaded)
  · -- Nothing relative is left in the options, so only the tree is asked from here on.
    intro options normalized
    have rootsAbsolute := (Options.isAbsolute_of_ofSettings normalized).2
    have rootsInMode : ∀ root ∈ (if arguments.production then options.setMode .production
        else options).root, root.isAbsolute := by
      split <;> exact rootsAbsolute
    dsimp only
    rw [Host.resolveWith_inDirectory rootsInMode fileAbsolute]
    rfl

/--
With `--cwd` a program runs as if it were launched in the directory named there, whenever
the settings stand for the same base directory from both.
-/
theorem run_withDirectory {environment : Option Text} {rest : List Text} (location : Location)
    (launched : host.directory.removed = 0)
    (once : ∀ arguments, parse environment ("resolve".toList :: rest) = .ok (.resolve arguments) →
      arguments.cwd = none)
    (sameBase : ∀ arguments loaded,
      parse environment ("resolve".toList :: rest) = .ok (.resolve arguments) →
      settings (host.inDirectory ⟨location, 0⟩) arguments = .ok loaded →
      Options.baseDirectory host (Path.rooted host.directory.location)
          ((Path.rooted location).absoluteFrom arguments.file) loaded.cwd =
        Options.baseDirectory host (Path.rooted location)
          ((Path.rooted location).absoluteFrom arguments.file) loaded.cwd) :
    run host environment
        ("--cwd".toList :: Path.rooted location :: "resolve".toList :: rest) =
      run (host.inDirectory ⟨location, 0⟩) environment ("resolve".toList :: rest) := by
  have withCwd := parse_cwd environment (Text.joinWith '/' location) rest
  rw [← Path.rooted] at withCwd
  rw [run, run, withCwd]
  cases read : parse environment ("resolve".toList :: rest) with
  | error stop => cases stop <;> rfl
  | ok command =>
      cases command with
      | version => rfl
      | resolve arguments =>
          have sameReport := report_withDirectory launched (once arguments read)
            fun loaded => sameBase arguments loaded read
          simp only [Except.map, Command.withDirectory, Command.run, sameReport]
          rfl

/-- A host with settings for a package in one directory, launched in another. -/
def launchHost : Host where
  tree := ⟨[
    ("d".toList, .directory [
      ("a.json".toList, .file (some "\x7b\"cwd\":\"/d/s\",\"root\":[\"r\"]\x7d".toList)),
      ("b.json".toList, .file (some "\x7b\"cwd\":\"s\",\"root\":[\"r\"]\x7d".toList)),
      ("s".toList, .directory [("r".toList, .directory [("x.js".toList, .file (some []))])])]),
    ("w".toList, .directory [])]⟩
  directory := ⟨["w".toList], 0⟩
  nodeEnv := none

/-- The arguments of a resolution in `launchHost`, with the settings in a file. -/
def launchArguments (config : Path) : ResolveArguments where
  specifier := "x".toList
  file := "f".toList
  config := some config
  production := false
  json := false
  cwd := none

/-- The text of `launchArguments` after the name of the command. -/
def launchTexts (config : Path) : List Text :=
  ["x".toList, "--file".toList, "f".toList, "--config".toList, config]

theorem run_withDirectory_in_launchHost :
    run launchHost none
        ("--cwd".toList :: "/d".toList :: "resolve".toList :: launchTexts "a.json".toList) =
      run (launchHost.inDirectory ⟨["d".toList], 0⟩) none
        ("resolve".toList :: launchTexts "a.json".toList) := by
  have parsed : parse none ("resolve".toList :: launchTexts "a.json".toList) =
      .ok (.resolve (launchArguments "a.json".toList)) := rfl
  have base : (settings (launchHost.inDirectory ⟨["d".toList], 0⟩)
      (launchArguments "a.json".toList)).toOption.map Settings.cwd =
      some (some (.directory "/d/s".toList)) := by decide +kernel
  have fixed : Options.IsFixedBase launchHost "/d/f".toList (.directory "/d/s".toList) := rfl
  apply run_withDirectory ["d".toList] rfl
  · intro arguments same
    rw [Command.resolve.inj (Except.ok.inj (same.symm.trans parsed))]
    rfl
  · intro arguments loaded same isLoaded
    rw [Command.resolve.inj (Except.ok.inj (same.symm.trans parsed))] at isLoaded ⊢
    rw [isLoaded] at base
    rw [Option.some.inj base]
    exact fixed.baseDirectory_eq "/w".toList "/d".toList

/-- A relative base directory in the settings is taken from where the program really is. -/
theorem not_forall_run_withDirectory :
    ¬∀ (host : Host) (environment : Option Text) (location : Location) (rest : List Text),
      host.tree.node? host.directory.location = some .directory → host.directory.removed = 0 →
      host.tree.node? location = some .directory → Path.AreNames location →
      (∀ arguments, parse environment ("resolve".toList :: rest) = .ok (.resolve arguments) →
        arguments.cwd = none) →
      run host environment
          ("--cwd".toList :: Path.rooted location :: "resolve".toList :: rest) =
        run (host.inDirectory ⟨location, 0⟩) environment ("resolve".toList :: rest) := by
  intro always
  have parsed : parse none ("resolve".toList :: launchTexts "b.json".toList) =
      .ok (.resolve (launchArguments "b.json".toList)) := rfl
  have once : ∀ arguments, parse none ("resolve".toList :: launchTexts "b.json".toList) =
      .ok (.resolve arguments) → arguments.cwd = none := by
    intro arguments same
    rw [Command.resolve.inj (Except.ok.inj (same.symm.trans parsed))]
    rfl
  have sameRun := always launchHost none ["d".toList] (launchTexts "b.json".toList) (by decide)
    rfl (by decide) (Path.AreNames.cons.mpr ⟨by decide, Path.AreNames.nil⟩) once
  revert sameRun
  decide +kernel

end CommandLine

end ImportResolution
