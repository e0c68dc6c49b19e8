import ImportResolution.Proofs.Resolution.Chain

/-!
# Resolution with effects

A resolution asks for the ways between paths, and it gives its warnings while it goes on. Here
it is written in any monad, with any computation of ways and any receiver of the warnings
(`Options.resolveBy`). Without effects of its own, a computation of ways leaves those of the
receiver alone: it is given the warnings of the outcome, in order, and the outcome is that of
`Options.resolve` (`Options.resolveBy_plainWay`).
-/

namespace ImportResolution

variable {m : Type → Type} [Monad m]

/-- The way between two paths, found without any effect. -/
def Path.plainWay (start target : Path) : m Path :=
  pure (start.relativeTo target)

/-- A receiver that drops the warnings. -/
def Warning.drop (_ : Warning) : m Unit :=
  pure ()

section Effects

variable (way : Path → Path → m Path) (give : Warning → m Unit)

namespace Specifier

/-- `Specifier.wayFromImporter` with any computation of ways. -/
def wayFromImporterBy (cwd file target : Path) : m Specifier := do
  pure (withSlashes (← way file.parentOrSelf (cwd.absoluteFrom target)))

/-- `Specifier.ofModule` with any computation of ways. -/
def ofModuleBy (options : Options) (file : Path) (specifier : Specifier) (found : Path) :
    m Specifier := do
  let path ← wayFromImporterBy way options.cwd file found
  pure (asRelative
    (if found.extension = specifier.extension then path
    else path.withoutExtension options.stripExtensions))

end Specifier

namespace Attempt

variable {α β : Type}

/-- `Attempt.map` with a form that is computed. -/
def mapBy (attempt : Attempt α) (form : α → m β) : m (Attempt β) :=
  match attempt.found with
  | some value => do pure ⟨some (← form value), attempt.warnings, attempt.queries⟩
  | none => pure ⟨none, attempt.warnings, attempt.queries⟩

/-- `Attempt.firstOf` with attempts that are computed; none is made after a hit. -/
def firstOfBy (attempt : β → m (Attempt α)) : List β → m (Attempt α)
  | [] => pure miss
  | item :: items => do
      let first ← attempt item
      match first.found with
      | some _ => pure first
      | none => do pure (first.orElse (← firstOfBy attempt items))

end Attempt

namespace Options

variable (options : Options) (locator : Locator) (file : Path) (specifier : Specifier)

/-- `Options.resolveAlias` with any effects. -/
def resolveAliasBy : m (Attempt Specifier) :=
  match options.aliasTarget? specifier with
  | none => pure .miss
  | some target =>
      if target.isEmpty then pure .miss
      else if Specifier.isRelative target then do
        pure (.hit (Specifier.asRelative
          (← Specifier.wayFromImporterBy way options.cwd file target)))
      else if options.mode = .production then pure (.hit target)
      else
        let query : Query := ⟨target, file.parentOrSelf, options.extensions⟩
        let warnings : List Warning :=
          if (locator.answer query).isSome then []
          else [⟨.unresolvedAliasTarget, target, file⟩]
        do
          warnings.forM give
          pure ⟨some target, warnings, [query]⟩

/-- `Options.resolveRoot` with any computation of ways. -/
def resolveRootBy : m (Attempt Specifier) :=
  (options.searchRoots locator specifier).mapBy (Specifier.ofModuleBy way options file specifier)

theorem lawfulBEq_text : LawfulBEq Text :=
  inferInstance

-- A proof under a name, so that the next definition refers to no auxiliary lemma of another one.
attribute [local instance] lawfulBEq_text

/-- `Options.resolveImage` with any computation of ways. -/
def resolveImageBy : m (Attempt Specifier) :=
  if specifier.extension ∈ options.imageTypes then
    Attempt.firstOfBy
      (fun scale => do
        let scaled := scaledName specifier scale
        pure ((← options.resolveRootBy way locator file scaled).map (unscaledName specifier)))
      options.imageScale
  else pure .miss

/-- `Options.attempt` with any effects. -/
def attemptBy : Strategy → m (Attempt Specifier)
  | .relative => pure (if specifier.isRelative then .hit specifier else .miss)
  | .aliased => options.resolveAliasBy way give locator file specifier
  | .root => options.resolveRootBy way locator file specifier
  | .rootImageScale => options.resolveImageBy way locator file specifier

/-- `Options.resolve` with any effects. -/
def resolveBy (current : Path) : m Outcome :=
  if specifier.isRelative then pure (.unchanged specifier)
  else do
    let file := Path.absoluteFrom current file
    let attempt ← Attempt.firstOfBy
      (fun strategy => do
        pure ((← options.attemptBy way give locator file specifier strategy).map
          fun found => (found, strategy)))
      strategies
    pure ⟨.ofFound attempt.found, attempt.warnings, attempt.queries⟩

end Options

end Effects

/-! ## Ways without effects -/

section Plain

variable [LawfulMonad m] (give : Warning → m Unit)

namespace Specifier

theorem wayFromImporterBy_plainWay (cwd file target : Path) :
    wayFromImporterBy (m := m) Path.plainWay cwd file target =
      pure (wayFromImporter cwd file target) := by
  simp [wayFromImporterBy, wayFromImporter, Path.plainWay]

theorem ofModuleBy_plainWay (options : Options) (file : Path) (specifier : Specifier)
    (found : Path) :
    ofModuleBy (m := m) Path.plainWay options file specifier found =
      pure (ofModule options file specifier found) := by
  simp [ofModuleBy, ofModule, wayFromImporterBy_plainWay]

end Specifier

namespace Attempt

variable {α β : Type}

/-- The receiver is given the warnings of an attempt, in order. -/
def giveTo (attempt : Attempt α) : m (Attempt α) := do
  attempt.warnings.forM give
  pure attempt

theorem giveTo_of_silent {attempt : Attempt α} (silent : attempt.warnings = []) :
    attempt.giveTo give = pure attempt := by
  simp [giveTo, silent]

theorem mapBy_pure (attempt : Attempt α) (form : α → β) :
    attempt.mapBy (fun value => pure (f := m) (form value)) = pure (attempt.map form) := by
  unfold mapBy map
  cases attempt.found with
  | none => rfl
  | some value => exact pure_bind (form value) _

theorem giveTo_map (attempt : Attempt α) (form : α → β) :
    (attempt.map form).giveTo give = (fun attempt => attempt.map form) <$> attempt.giveTo give := by
  simp [giveTo, map]

/-- Attempts that give their warnings give those of the first hit and of all before it. -/
theorem firstOfBy_giveTo (attempt : β → Attempt α) (items : List β) :
    firstOfBy (fun item => (attempt item).giveTo give) items =
      (firstOf attempt items).giveTo give := by
  induction items with
  | nil => exact (giveTo_of_silent give rfl).symm
  | cons item items ih =>
      rw [firstOfBy, ih, firstOf]
      cases found : (attempt item).found with
      | some value => simp [giveTo, orElse, found]
      | none => simp [giveTo, orElse, found, List.forM_append]

end Attempt

namespace Options

variable (options : Options) (locator : Locator) (file : Path) (specifier : Specifier)

theorem resolveAliasBy_plainWay :
    options.resolveAliasBy Path.plainWay give locator file specifier =
      (options.resolveAlias locator file specifier).giveTo give := by
  unfold resolveAliasBy resolveAlias
  cases options.aliasTarget? specifier with
  | none => exact (Attempt.giveTo_of_silent give rfl).symm
  | some target =>
      dsimp only
      split
      · exact (Attempt.giveTo_of_silent give rfl).symm
      · split
        · rw [Specifier.wayFromImporterBy_plainWay, pure_bind]
          exact (Attempt.giveTo_of_silent give rfl).symm
        · split
          · exact (Attempt.giveTo_of_silent give rfl).symm
          · rfl

theorem resolveRootBy_plainWay :
    options.resolveRootBy (m := m) Path.plainWay locator file specifier =
      pure (options.resolveRoot locator file specifier) := by
  rw [resolveRootBy, funext (Specifier.ofModuleBy_plainWay options file specifier)]
  exact Attempt.mapBy_pure _ _

theorem warnings_resolveRoot :
    (options.resolveRoot locator file specifier).warnings = [] := by
  rw [resolveRoot_eq_search]
  rfl

theorem resolveImageBy_plainWay :
    options.resolveImageBy Path.plainWay locator file specifier =
      (options.resolveImage locator file specifier).giveTo give := by
  unfold resolveImageBy resolveImage
  split
  · rw [← Attempt.firstOfBy_giveTo]
    congr
    funext scale
    dsimp only
    rw [resolveRootBy_plainWay, pure_bind, Attempt.giveTo_of_silent]
    exact options.warnings_resolveRoot locator file _
  · exact (Attempt.giveTo_of_silent give rfl).symm

theorem attemptBy_plainWay (strategy : Strategy) :
    options.attemptBy Path.plainWay give locator file specifier strategy =
      (options.attempt locator file specifier strategy).giveTo give := by
  cases strategy with
  | relative =>
      rw [attemptBy, attempt, Attempt.giveTo_of_silent]
      split <;> rfl
  | aliased => exact options.resolveAliasBy_plainWay give locator file specifier
  | root =>
      rw [attemptBy, resolveRootBy_plainWay, attempt, Attempt.giveTo_of_silent]
      exact options.warnings_resolveRoot locator file specifier
  | rootImageScale => exact options.resolveImageBy_plainWay give locator file specifier

/-- Whatever receives the warnings, they are those of the outcome, and so is the answer. -/
theorem resolveBy_plainWay (current : Path) :
    options.resolveBy Path.plainWay give locator file specifier current = (do
      (options.resolve locator current specifier file).warnings.forM give
      pure (options.resolve locator current specifier file)) := by
  unfold resolveBy resolve
  split
  · simp [Outcome.unchanged]
  · have each : ∀ strategy, (do
        pure ((← options.attemptBy Path.plainWay give locator (current.absoluteFrom file) specifier
          strategy).map fun found => (found, strategy))) =
        ((options.attempt locator (current.absoluteFrom file) specifier strategy).map
          fun found => (found, strategy)).giveTo give := by
      intro strategy
      rw [attemptBy_plainWay, Attempt.giveTo_map, bind_pure_comp]
    simp only [each, Attempt.firstOfBy_giveTo]
    simp [Attempt.giveTo]

end Options

end Plain

end ImportResolution
