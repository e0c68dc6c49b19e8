import ImportResolution.CommandLine.Run
import ImportResolution.Proofs.Locator.Files
import ImportResolution.Proofs.Resolution.Ways

/-!
# Ways in the runs of a program

Neither resolution from settings nor the command that resolves asks for a way between
paths that are not both absolute (`CommandLine.ways_areAbsolute`): the directories of
normalized options are absolute whatever the settings say, what is found from them is,
and the importing file is taken from the working directory.
-/

namespace ImportResolution

namespace CommandLine

/-- `CommandLine.report` with any computation of ways, and no other receiver of warnings. -/
def reportBy {m : Type → Type} [Monad m] (way : Path → Path → m Path) (host : Host)
    (arguments : ResolveArguments) : Except ConfigError (m Report) := do
  let settings ← settings host arguments
  let file := (workingDirectory host arguments).join arguments.file
  let options ← Options.ofSettings host settings file
  let options := if arguments.production then options.setMode .production else options
  pure (do
    let outcome ← options.resolveBy way Warning.drop host.locate file arguments.specifier
      host.importBase
    pure ⟨arguments.specifier, file, options.mode, outcome.resolution, outcome.warnings⟩)

end CommandLine

theorem Reading.report {m : Type → Type} [Monad m] {way : Path → Path → m Path}
    {gives : ⦃α : Type⦄ → m α → α → Prop} (reading : Reading way gives) (host : Host)
    (arguments : CommandLine.ResolveArguments) :
    Follows (@gives _) (CommandLine.reportBy way host arguments)
      (CommandLine.report host arguments) := by
  apply Follows.bind
  intro settings _
  apply Follows.bind
  intro options normalized
  have currentAbsolute := Host.isAbsolute_importBase_of_ofSettings normalized
  -- The flag for production leaves the directory of the options as it is.
  have cwdAbsolute : (if arguments.production then options.setMode .production
      else options).cwd.isAbsolute := by
    split <;> exact (Options.isAbsolute_of_ofSettings normalized).1
  apply Follows.ok
  apply reading.bind (reading.resolveBy cwdAbsolute currentAbsolute _)
  exact reading.pure _

namespace CommandLine

/--
The directories of normalized options are absolute, and so is whatever is found from their
roots. Resolution from settings and the command that resolves fail as they do, or have the
same result when the ends of all ways are kept, and all these ends are absolute.
-/
theorem ways_areAbsolute (host : Host) :
    (∀ settings file options, Options.ofSettings host settings file = .ok options →
      options.cwd.isAbsolute = true ∧ ∀ root ∈ options.root, root.isAbsolute = true ∧
        ∀ specifier extensions found,
          host.locate specifier root extensions = some found → found.isAbsolute = true) ∧
    (∀ settings specifier file,
      Follows Traced.Gives (host.resolveBy Path.recordedWay settings specifier file)
        (host.resolve settings specifier file)) ∧
    ∀ arguments,
      Follows Traced.Gives (reportBy Path.recordedWay host arguments) (report host arguments) := by
  refine ⟨?_, Traced.reading.resolve host, Traced.reading.report host⟩
  intro settings file options normalized
  rcases Options.isAbsolute_of_ofSettings normalized with ⟨cwdAbsolute, rootsAbsolute⟩
  refine ⟨cwdAbsolute, ?_⟩
  intro root root_mem
  refine ⟨rootsAbsolute root root_mem, ?_⟩
  intro specifier extensions found located
  exact Host.isAbsolute_of_locate (rootsAbsolute root root_mem) located

/-- Settings and a file that are named by relative paths lead to a way between absolute ones. -/
theorem ways_areAbsolute_in_neighborHost :
    (∃ options, Options.ofSettings Host.neighborHost Host.neighborSettings "f".toList =
        .ok options ∧ options.cwd.isAbsolute = true ∧ options.root = ["/d/r".toList] ∧
        (Host.neighborHost.locate "./x".toList "/d/r".toList options.extensions).isSome ∧
        ∀ found, Host.neighborHost.locate "./x".toList "/d/r".toList options.extensions =
          some found → found.isAbsolute = true) ∧
    ∃ run, Host.neighborHost.resolveBy Path.recordedWay Host.neighborSettings "x".toList
        "f".toList = .ok run ∧ run.ways = [⟨"/w".toList, "/d/r/x.js".toList⟩] ∧
      ∀ ends ∈ run.ways, ends.AreAbsolute := by
  rcases ways_areAbsolute Host.neighborHost with ⟨areAbsolute, follows, -⟩
  constructor
  · have summary : (Options.ofSettings Host.neighborHost Host.neighborSettings
        "f".toList).toOption.map (fun options => (options.root, options.extensions)) =
        some (["/d/r".toList], defaultExtensions) := by
      decide +kernel
    rcases exists_of_map_toOption summary with ⟨options, normalized, isSummary⟩
    rcases Prod.mk.inj isSummary with ⟨roots, extensions⟩
    rcases areAbsolute _ _ _ normalized with ⟨cwdAbsolute, rootsAbsolute⟩
    refine ⟨options, normalized, cwdAbsolute, roots, ?_, ?_⟩
    · rw [extensions]
      decide +kernel
    · intro found located
      exact (rootsAbsolute "/d/r".toList (by simp [roots])).2 _ _ found located
  · have traced : (Host.neighborHost.resolveBy Path.recordedWay Host.neighborSettings "x".toList
        "f".toList).toOption.map Traced.ways = some [⟨"/w".toList, "/d/r/x.js".toList⟩] := by
      decide +kernel
    rcases exists_of_map_toOption traced with ⟨run, computed, ways⟩
    have outcome := follows Host.neighborSettings "x".toList "f".toList
    rw [computed] at outcome
    rcases outcome with _ | gives
    exact ⟨run, computed, ways, gives.absolute⟩

end CommandLine

end ImportResolution
