import ImportResolution.Proofs.Resolution.Effects
import ImportResolution.Proofs.Resolution.WorkingDirectory

/-!
# The ways that are asked for

`Path.relativeTo` is meant for two absolute paths, but it answers for any two and nobody
checks them. Resolution is written for any computation of ways, in any monad
(`Options.resolveBy`, `Host.resolveBy`); its warnings are dropped here.

Such computations are read as giving values (`Reading`). A reading goes through sequences,
and it has to take the way between two absolute paths for what `Path.relativeTo` says of
them; of other ways it says what it likes. Every resolution with absolute directories is
then read as the resolution with `Path.relativeTo` (`Reading.resolveBy`), and those of
normalized options are (`Reading.resolve`). There are two readings:

* functions for ways are read as their values, so that nothing depends on the ways between
  other paths (`Host.resolveBy_eq_resolve`);
* with the ends of all ways kept beside a value, it is read as this value only if all of
  them are absolute (`Traced.reading`).
-/

namespace ImportResolution

/-- `Host.resolve` with any computation of ways, and without its warnings being received. -/
def Host.resolveBy {m : Type → Type} [Monad m] (way : Path → Path → m Path) (host : Host)
    (settings : Settings) (specifier : Specifier) (file : Path) :
    Except ConfigError (m Outcome) :=
  if specifier.isRelative then .ok (pure (.unchanged specifier))
  else do
    let options ← Options.ofSettings host settings file
    pure (options.resolveBy way Warning.drop host.locate file specifier host.importBase)

/-! ## Reading a computation of ways -/

/-- Both fail alike, or the first succeeds with a computation that gives what the second has. -/
inductive Follows {ε α : Type} {m : Type → Type} (gives : m α → α → Prop) :
    Except ε (m α) → Except ε α → Prop
  | error (error : ε) : Follows gives (.error error) (.error error)
  | ok {run : m α} {value : α} (holds : gives run value) : Follows gives (.ok run) (.ok value)

/-- What precedes and may fail is the same on both sides. -/
theorem Follows.bind {ε α β : Type} {m : Type → Type} {gives : m β → β → Prop}
    {first : Except ε α} {next : α → Except ε (m β)} {other : α → Except ε β}
    (agree : ∀ value, first = .ok value → Follows gives (next value) (other value)) :
    Follows gives (first >>= next) (first >>= other) := by
  cases first with
  | error error => exact .error error
  | ok value => exact agree value rfl

theorem Follows.eq {ε α : Type} {first : Except ε (Id α)} {second : Except ε α}
    (follows : Follows (fun run value => run = value) first second) : first = second := by
  cases follows with
  | error error => rfl
  | ok holds => rw [holds]

/-- Computations are read as giving values, and ways between absolute paths as they are. -/
structure Reading {m : Type → Type} [Monad m] (way : Path → Path → m Path)
    (gives : ⦃α : Type⦄ → m α → α → Prop) : Prop where
  pure : ∀ ⦃α : Type⦄ (value : α), gives (pure value) value
  bind : ∀ ⦃α β : Type⦄ {first : m α} {value : α} {next : α → m β} {result : β},
    gives first value → gives (next value) result → gives (first >>= next) result
  way : ∀ {start target : Path}, start.isAbsolute → target.isAbsolute →
    gives (way start target) (start.relativeTo target)

namespace Reading

variable {m : Type → Type} [Monad m] {way : Path → Path → m Path}
  {gives : ⦃α : Type⦄ → m α → α → Prop} (reading : Reading way gives)
include reading

section Attempts

variable {α β : Type}

theorem mapBy {attempt : Attempt α} {form : α → m β} {formed : α → β}
    (givesForm : ∀ value, gives (form value) (formed value)) :
    gives (attempt.mapBy form) (attempt.map formed) := by
  unfold Attempt.mapBy Attempt.map
  split
  · rename_i value found
    rw [found]
    apply reading.bind (givesForm value)
    exact reading.pure _
  · rename_i found
    rw [found]
    exact reading.pure _

theorem firstOfBy {attempt : β → m (Attempt α)} {attempted : β → Attempt α}
    (givesAttempt : ∀ item, gives (attempt item) (attempted item)) (items : List β) :
    gives (Attempt.firstOfBy attempt items) (Attempt.firstOf attempted items) := by
  induction items with
  | nil => exact reading.pure _
  | cons item items ih =>
      apply reading.bind (givesAttempt item)
      unfold Attempt.firstOf
      cases found : (attempted item).found with
      | some value =>
          have stops : (attempted item).orElse (Attempt.firstOf attempted items) =
              attempted item := by
            simp [Attempt.orElse, found]
          rw [stops]
          exact reading.pure _
      | none =>
          apply reading.bind ih
          exact reading.pure _

end Attempts

variable {options : Options} {locator : Locator} {current cwd file : Path}
  {specifier : Specifier}

/-- Dropping warnings is read as doing nothing. -/
theorem forM_drop (warnings : List Warning) :
    gives (warnings.forM Warning.drop) PUnit.unit := by
  induction warnings with
  | nil => exact reading.pure _
  | cons warning warnings ih => exact reading.bind (reading.pure _) ih

theorem wayFromImporterBy (cwdAbsolute : cwd.isAbsolute) (fileAbsolute : file.isAbsolute)
    (target : Path) :
    gives (Specifier.wayFromImporterBy way cwd file target)
      (Specifier.wayFromImporter cwd file target) := by
  have startAbsolute := Path.isAbsolute_parentOrSelf fileAbsolute
  have targetAbsolute := Path.isAbsolute_absoluteFrom cwdAbsolute target
  apply reading.bind (reading.way startAbsolute targetAbsolute)
  exact reading.pure _

theorem ofModuleBy (cwdAbsolute : options.cwd.isAbsolute) (fileAbsolute : file.isAbsolute)
    (specifier : Specifier) (found : Path) :
    gives (Specifier.ofModuleBy way options file specifier found)
      (Specifier.ofModule options file specifier found) := by
  apply reading.bind (reading.wayFromImporterBy cwdAbsolute fileAbsolute found)
  exact reading.pure _

theorem resolveAliasBy (cwdAbsolute : options.cwd.isAbsolute) (fileAbsolute : file.isAbsolute) :
    gives (options.resolveAliasBy way Warning.drop locator file specifier)
      (options.resolveAlias locator file specifier) := by
  unfold Options.resolveAliasBy Options.resolveAlias
  cases options.aliasTarget? specifier with
  | none => exact reading.pure _
  | some target =>
      dsimp only
      split
      · exact reading.pure _
      · split
        · apply reading.bind (reading.wayFromImporterBy cwdAbsolute fileAbsolute target)
          exact reading.pure _
        · split
          · exact reading.pure _
          · apply reading.bind (reading.forM_drop _)
            exact reading.pure _

theorem resolveRootBy (cwdAbsolute : options.cwd.isAbsolute) (fileAbsolute : file.isAbsolute) :
    gives (options.resolveRootBy way locator file specifier)
      (options.resolveRoot locator file specifier) := by
  apply reading.mapBy
  exact reading.ofModuleBy cwdAbsolute fileAbsolute specifier

theorem resolveImageBy (cwdAbsolute : options.cwd.isAbsolute) (fileAbsolute : file.isAbsolute) :
    gives (options.resolveImageBy way locator file specifier)
      (options.resolveImage locator file specifier) := by
  unfold Options.resolveImageBy Options.resolveImage
  split
  · apply reading.firstOfBy
    intro scale
    apply reading.bind (reading.resolveRootBy cwdAbsolute fileAbsolute)
    exact reading.pure _
  · exact reading.pure _

theorem attemptBy (cwdAbsolute : options.cwd.isAbsolute) (fileAbsolute : file.isAbsolute)
    (strategy : Strategy) :
    gives (options.attemptBy way Warning.drop locator file specifier strategy)
      (options.attempt locator file specifier strategy) := by
  cases strategy with
  | relative => exact reading.pure _
  | aliased => exact reading.resolveAliasBy cwdAbsolute fileAbsolute
  | root => exact reading.resolveRootBy cwdAbsolute fileAbsolute
  | rootImageScale => exact reading.resolveImageBy cwdAbsolute fileAbsolute

/-- From absolute directories, a resolution gives what it gives with `Path.relativeTo`. -/
theorem resolveBy (cwdAbsolute : options.cwd.isAbsolute) (currentAbsolute : current.isAbsolute)
    (file : Path) :
    gives (options.resolveBy way Warning.drop locator file specifier current)
      (options.resolve locator current specifier file) := by
  have fileAbsolute := Path.isAbsolute_absoluteFrom currentAbsolute file
  unfold Options.resolveBy Options.resolve
  split
  · exact reading.pure _
  · apply reading.bind
    · apply reading.firstOfBy
      intro strategy
      apply reading.bind (reading.attemptBy cwdAbsolute fileAbsolute strategy)
      exact reading.pure _
    · exact reading.pure _

/-- Normalized options have an absolute directory, and so has the host that gave them. -/
theorem resolve (host : Host) (settings : Settings) (specifier : Specifier) (file : Path) :
    Follows (@gives _) (host.resolveBy way settings specifier file)
      (host.resolve settings specifier file) := by
  unfold Host.resolveBy Host.resolve
  split
  · exact .ok (reading.pure _)
  · apply Follows.bind
    intro options normalized
    have cwdAbsolute := (Options.isAbsolute_of_ofSettings normalized).1
    have currentAbsolute := Host.isAbsolute_importBase_of_ofSettings normalized
    exact .ok (reading.resolveBy cwdAbsolute currentAbsolute file)

end Reading

/-! ## Functions for ways -/

/-- Functions are read as their values, wherever they agree on the ways of absolute paths. -/
theorem reading_of_agrees {way : Path → Path → Path}
    (agrees : ∀ {start target : Path}, start.isAbsolute → target.isAbsolute →
      way start target = start.relativeTo target) :
    Reading (m := Id) way (fun _ run value => run = value) where
  pure := fun _ _ => rfl
  bind := by
    rintro α β first value next result rfl rfl
    rfl
  way := agrees

/-- What is said of the way between paths that are not both absolute makes no difference. -/
theorem Host.resolveBy_eq_resolve {way : Path → Path → Path}
    (agrees : ∀ {start target : Path}, start.isAbsolute → target.isAbsolute →
      way start target = start.relativeTo target)
    (host : Host) (settings : Settings) (specifier : Specifier) (file : Path) :
    host.resolveBy (m := Id) way settings specifier file =
      host.resolve settings specifier file :=
  ((reading_of_agrees agrees).resolve host settings specifier file).eq

/-! ## The ends of the ways -/

/-- The two ends of a way. -/
structure Ends where
  start : Path
  target : Path
  deriving DecidableEq, Repr

/-- Both ends are absolute. -/
structure Ends.AreAbsolute (ends : Ends) : Prop where
  start : ends.start.isAbsolute = true
  target : ends.target.isAbsolute = true

/-- A value with the ends of the ways that were asked for, in order. -/
structure Traced (α : Type) where
  value : α
  ways : List Ends

/-- The way between two paths, with its ends kept. -/
def Path.recordedWay (start target : Path) : Traced Path :=
  ⟨start.relativeTo target, [⟨start, target⟩]⟩

namespace Traced

variable {α : Type}

instance : Monad Traced where
  pure value := ⟨value, []⟩
  bind first next := ⟨(next first.value).value, first.ways ++ (next first.value).ways⟩

/-- The computation has this value, and all its ways lead between absolute paths. -/
structure Gives (traced : Traced α) (value : α) : Prop where
  value_eq : traced.value = value
  absolute : ∀ ends ∈ traced.ways, ends.AreAbsolute

theorem reading : Reading Path.recordedWay @Gives where
  pure := by
    intro α value
    refine ⟨rfl, ?_⟩
    intro ends ends_mem
    contradiction
  bind := by
    intro α β first value next result givesFirst givesNext
    rcases givesFirst with ⟨rfl, absolute⟩
    refine ⟨givesNext.value_eq, ?_⟩
    intro ends ends_mem
    rcases List.mem_append.mp ends_mem with inFirst | inNext
    · exact absolute ends inFirst
    · exact givesNext.absolute ends inNext
  way := by
    intro start target startAbsolute targetAbsolute
    refine ⟨rfl, ?_⟩
    intro ends ends_mem
    rw [List.mem_singleton.mp ends_mem]
    exact ⟨startAbsolute, targetAbsolute⟩

end Traced

end ImportResolution
