import ImportResolution.CommandLine.Run
import ImportResolution.Proofs.Resolution.WorkingDirectory

/-!
# Commands and the library

The command that resolves does not call `Host.resolve`: it normalizes settings and resolves
in its own order. Without the flag for production its report is nevertheless made from the
answer of `Host.resolve`, and it fails with the same error (`CommandLine.report_eq_map`).

A relative specifier is the exception. The library answers it before it looks at the
settings, while the command normalizes them first and may fail. The two agree unless this
happens (`CommandLine.run_agrees_iff`).
-/

namespace ImportResolution

namespace Host

variable {host : Host} {settings : Settings} {specifier : Specifier} {file : Path}

/-- Unless a relative specifier hides a failure, resolution is normalization and then a search. -/
theorem resolve_eq_map (normalizes : specifier.isRelative = true →
      ∃ options, Options.ofSettings host settings file = .ok options) :
    host.resolve settings specifier file =
      (Options.ofSettings host settings file).map
        fun options => host.resolveWith options specifier file := by
  cases relative : specifier.isRelative with
  | true =>
      rcases normalizes relative with ⟨options, normalized⟩
      rw [resolve_of_ofSettings normalized, normalized, Except.map]
  | false =>
      simp only [resolve, relative, Bool.false_eq_true, if_false]
      cases Options.ofSettings host settings file <;> rfl

end Host

theorem Options.mode_of_ofSettings {host : Host} {settings : Settings} {file : Path}
    {options : Options} (normalized : ofSettings host settings file = .ok options) :
    options.mode = Mode.ofEnvironment host.nodeEnv := by
  rcases exists_of_ofSettings normalized with ⟨current, -, taken⟩
  rcases exists_of_bind_eq_ok taken with ⟨roots, -, taken⟩
  rcases exists_of_bind_eq_ok taken with ⟨rules, -, taken⟩
  rw [← Except.ok.inj taken]

namespace CommandLine

/-! ## Reports -/

theorem Report.text_ne_nil (report : Report) (json : Bool) : report.text json ≠ [] := by
  cases json with
  | true => simp [text]
  | false => simp [text, lines]

/-- The importing file that the arguments name. -/
def importingFile (host : Host) (arguments : ResolveArguments) : Path :=
  (workingDirectory host arguments).join arguments.file

/-- The report on an outcome that the library has for the arguments. -/
def reportOf (host : Host) (arguments : ResolveArguments) (outcome : Outcome) : Report where
  specifier := arguments.specifier
  file := importingFile host arguments
  mode := Mode.ofEnvironment host.nodeEnv
  resolution := outcome.resolution
  warnings := outcome.warnings

section Reports

variable {host : Host} {arguments : ResolveArguments} {loaded : Settings}

/-- Without the flag for production a report shows the options as they were normalized. -/
theorem report_of_loaded (development : arguments.production = false)
    (isLoaded : settings host arguments = .ok loaded) :
    report host arguments =
      (Options.ofSettings host loaded (importingFile host arguments)).map fun options =>
        reportOf host arguments
          (host.resolveWith options arguments.specifier (importingFile host arguments)) := by
  rw [report, isLoaded]
  change Options.ofSettings host loaded (importingFile host arguments) >>= _ = _
  cases normalized : Options.ofSettings host loaded (importingFile host arguments) with
  | error error => rfl
  | ok options =>
      have mode := Options.mode_of_ofSettings normalized
      simp [development, Except.map, reportOf, importingFile, mode, bind, Except.bind, pure,
        Except.pure]

/-- The command reports the answer of the library, or it fails with the error of the library. -/
theorem report_eq_map (development : arguments.production = false)
    (isLoaded : settings host arguments = .ok loaded)
    (normalizes : Specifier.isRelative arguments.specifier = true →
      ∃ options, Options.ofSettings host loaded (importingFile host arguments) = .ok options) :
    report host arguments =
      (host.resolve loaded arguments.specifier (importingFile host arguments)).map
        (reportOf host arguments) := by
  rw [report_of_loaded development isLoaded, Host.resolve_eq_map normalizes]
  cases Options.ofSettings host loaded (importingFile host arguments) <;> rfl

end Reports

/-! ## Exits -/

/-- An exit tells how the library answers: by its code, and by what it prints or does not print. -/
structure Exit.Agrees (exit : Exit) (host : Host) (arguments : ResolveArguments)
    (answer : Except ConfigError Outcome) : Prop where
  resolved : exit.code = 0 ↔ ∃ outcome, answer = .ok outcome ∧ outcome.resolution.isResolved
  unresolved :
    (exit.code = 1 ∧ ∃ report : Report, report.resolution = .unresolved ∧
        exit.output = report.text arguments.json) ↔
      ∃ outcome, answer = .ok outcome ∧ outcome.resolution = .unresolved
  failed : exit.code = 1 ∧ exit.output = [] ↔ ∃ error, answer = .error error
  reported : ∀ outcome, answer = .ok outcome →
    exit.output = (reportOf host arguments outcome).text arguments.json

theorem Exit.agrees_of_report_eq_map {host : Host} {arguments : ResolveArguments}
    {answer : Except ConfigError Outcome}
    (reports : report host arguments = answer.map (reportOf host arguments)) :
    ((Command.resolve arguments).run host).Agrees host arguments answer := by
  cases answer with
  | error error =>
      have failed : (Command.resolve arguments).run host = ⟨1, []⟩ := by
        simp [Command.run, reports, Except.map]
      rw [failed]
      refine ⟨by simp, ?_, by simp, by simp⟩
      simp only [reduceCtorEq, false_and, exists_false, iff_false, true_and]
      rintro ⟨report, -, printed⟩
      exact report.text_ne_nil arguments.json printed.symm
  | ok outcome =>
      have ended : (Command.resolve arguments).run host =
          ⟨if outcome.resolution.isResolved then 0 else 1,
            (reportOf host arguments outcome).text arguments.json⟩ := by
        simp [Command.run, reports, Except.map, reportOf]
      have notEmpty := (reportOf host arguments outcome).text_ne_nil arguments.json
      rw [ended]
      cases answered : outcome.resolution with
      | resolved specifier strategy =>
          refine ⟨?_, ?_, ?_, ?_⟩ <;> simp [answered, Resolution.isResolved, notEmpty]
      | unresolved =>
          refine ⟨?_, ?_, ?_, ?_⟩
          · simp [answered, Resolution.isResolved]
          · simp only [Resolution.isResolved, Bool.false_eq_true, if_false, true_and,
              Except.ok.injEq, exists_eq_left', answered, iff_true]
            exact ⟨reportOf host arguments outcome, answered, rfl⟩
          · simp [Resolution.isResolved, notEmpty]
          · simp

/--
A command without the flag for production agrees with the library, except where it fails to
normalize the settings for a relative specifier.
-/
theorem run_agrees_iff {host : Host} {environment : Option Text} {texts : List Text}
    {arguments : ResolveArguments} {loaded : Settings}
    (read : parse environment texts = .ok (.resolve arguments))
    (development : arguments.production = false)
    (isLoaded : settings host arguments = .ok loaded) :
    (run host environment texts).Agrees host arguments
        (host.resolve loaded arguments.specifier (importingFile host arguments)) ↔
      (Specifier.isRelative arguments.specifier = true →
        ∃ options, Options.ofSettings host loaded (importingFile host arguments) =
          .ok options) := by
  have isRun : run host environment texts = (Command.resolve arguments).run host := by
    rw [run, read]
  rw [isRun]
  constructor
  · intro agrees relative
    have answer := Host.resolve_of_isRelative relative host loaded
      (importingFile host arguments)
    have succeeds := agrees.resolved.mpr ⟨_, answer, rfl⟩
    -- A failure to normalize would end with another code.
    cases normalized : Options.ofSettings host loaded (importingFile host arguments) with
    | ok options => exact ⟨options, rfl⟩
    | error error =>
        have failed : report host arguments = .error error := by
          rw [report_of_loaded development isLoaded, normalized]
          rfl
        simp [Command.run, failed] at succeeds
  · intro normalizes
    exact Exit.agrees_of_report_eq_map (report_eq_map development isLoaded normalizes)

/-- A host with a module below a root and two configurations, the second with a broken alias. -/
def configHost : Host where
  tree := ⟨[
    ("p".toList, .directory [
      ("a.json".toList, .file (some "\x7b\"root\":[\"r\"]\x7d".toList)),
      ("b.json".toList, .file (some "\x7b\"alias\":\x7b\"^(\":\"x\"\x7d\x7d".toList)),
      ("r".toList, .directory [("x.js".toList, .file (some []))])])]⟩
  directory := ⟨["p".toList], 0⟩
  nodeEnv := none

/-- The arguments of a resolution in `configHost`. -/
def configArguments (specifier : Specifier) (config : Path) : ResolveArguments where
  specifier := specifier
  file := "f".toList
  config := some config
  production := false
  json := false
  cwd := none

/-- The text of `configArguments`. -/
def configTexts (specifier : Specifier) (config : Path) : List Text :=
  ["resolve".toList, specifier, "--file".toList, "f".toList, "--config".toList, config]

theorem run_agrees_in_configHost :
    (∃ loaded, settings configHost (configArguments "x".toList "a.json".toList) = .ok loaded ∧
      (run configHost none (configTexts "x".toList "a.json".toList)).Agrees configHost
        (configArguments "x".toList "a.json".toList)
        (configHost.resolve loaded "x".toList "/p/f".toList)) ∧
    (run configHost none (configTexts "x".toList "a.json".toList)).output =
      "Specifier: x\nMode: development\nResolved: ./r/x\nStrategy: root\n".toList := by
  have read : parse none (configTexts "x".toList "a.json".toList) =
      .ok (.resolve (configArguments "x".toList "a.json".toList)) := rfl
  have roots : (settings configHost (configArguments "x".toList "a.json".toList)).toOption.map
      Settings.root = some ["r".toList] := by decide +kernel
  rcases exists_of_map_toOption roots with ⟨loaded, isLoaded, -⟩
  refine ⟨⟨loaded, isLoaded, ?_⟩, by decide +kernel⟩
  apply (run_agrees_iff read rfl isLoaded).mpr
  intro relative
  exact absurd relative (by decide)

/-- A broken alias stops the command where the library looks at no alias. -/
theorem not_forall_run_agrees :
    ¬∀ (host : Host) (environment : Option Text) (texts : List Text)
      (arguments : ResolveArguments) (loaded : Settings),
      parse environment texts = .ok (.resolve arguments) → arguments.production = false →
      settings host arguments = .ok loaded →
      (run host environment texts).Agrees host arguments
        (host.resolve loaded arguments.specifier (importingFile host arguments)) := by
  intro always
  have read : parse none (configTexts "./x".toList "b.json".toList) =
      .ok (.resolve (configArguments "./x".toList "b.json".toList)) := rfl
  have noRoots : (settings configHost (configArguments "./x".toList "b.json".toList)).toOption.map
      Settings.root = some [] := by decide +kernel
  have fails : (run configHost none (configTexts "./x".toList "b.json".toList)).code = 1 := by
    decide +kernel
  rcases exists_of_map_toOption noRoots with ⟨loaded, isLoaded, -⟩
  have agrees := always configHost none _ _ loaded read rfl isLoaded
  have relative : Specifier.isRelative "./x".toList = true := rfl
  have succeeds := agrees.resolved.mpr ⟨_, Host.resolve_of_isRelative relative _ _ _, rfl⟩
  exact Nat.one_ne_zero (fails.symm.trans succeeds)

end CommandLine

end ImportResolution
