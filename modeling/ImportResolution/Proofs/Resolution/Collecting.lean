import ImportResolution.Proofs.Resolution.Effects
import ImportResolution.Proofs.Resolution.Warnings

/-!
# Collecting warnings

A resolution gives its warnings while it goes on, to whatever receives them. A collector is one
such receiver, and `Collector.performAll_keeps_all` is about every run of operations on it: no
warning is lost, repeated or out of order, and no answer depends on the warnings that are held.
-/

namespace ImportResolution

namespace Options

variable {options : Options} {locator : Locator} {current file : Path} {specifier : Specifier}

theorem length_warnings_le_one :
    (options.resolve locator current specifier file).warnings.length ≤ 1 := by
  by_cases lacking : ∃ target,
      options.LacksTarget locator (current.absoluteFrom file) specifier target
  · rcases lacking with ⟨target, lacks⟩
    rw [lacks.warnings_eq]
    exact Nat.le_refl 1
  · rw [warnings_eq_nil (not_exists.mp lacking)]
    exact Nat.zero_le 1

end Options

namespace Collector

/-! ## Operations on a collector -/

/-- The receiver that adds each warning to the collector. -/
def receive (warning : Warning) : StateM Collector Unit :=
  modify fun collector => collector.add warning

/-- What can be done with a collector. -/
inductive Operation
  /-- A specifier is resolved, and the warnings go to the collector. -/
  | resolve (options : Options) (locator : Locator) (current : Path) (specifier : Specifier)
      (file : Path)
  /-- A warning is added directly. -/
  | add (warning : Warning)
  /-- The warnings are read, and stay. -/
  | look
  /-- The warnings are given away. -/
  | drain

/-- The answer to an operation. -/
inductive Answer
  | resolution (resolution : Resolution)
  | done
  | shown (warnings : List Warning)
  | taken (warnings : List Warning)

namespace Answer

/-- The warnings that an answer gives away. -/
def takenWarnings : Answer → List Warning
  | .taken warnings => warnings
  | .resolution _ | .done | .shown _ => []

/-- The resolution that is the answer. -/
def resolution? : Answer → Option Resolution
  | .resolution reached => some reached
  | .done | .shown _ | .taken _ => none

end Answer

namespace Operation

/-- An operation carried out on the collector. -/
def perform : Operation → StateM Collector Answer
  | .resolve options locator current specifier file => do
      return .resolution
        (← options.resolveBy Path.plainWay receive locator file specifier current).resolution
  | .add warning => do
      receive warning
      return .done
  | .look => return .shown (← get).held
  | .drain => return .taken (← modifyGet Collector.drain)

/-- The answer to an operation, and the collector after it. -/
def step (collector : Collector) (operation : Operation) : Answer × Collector :=
  Id.run (operation.perform.run collector)

/-- The warnings given in an operation, in order. -/
def given : Operation → List Warning
  | .resolve options locator current specifier file =>
      (options.resolve locator current specifier file).warnings
  | .add warning => [warning]
  | .look => []
  | .drain => []

/-- What a specifier that is resolved in an operation resolves to without a collector. -/
def resolution? : Operation → Option Resolution
  | .resolve options locator current specifier file =>
      some (options.resolve locator current specifier file).resolution
  | .add _ | .look | .drain => none

end Operation

/-- The answers to operations, one after the other, and the collector after them. -/
def performAll (collector : Collector) (operations : List Operation) : List Answer × Collector :=
  Id.run ((operations.mapM Operation.perform).run collector)

variable (collector : Collector)

@[simp]
theorem held_addAll (warnings : List Warning) :
    (collector.addAll warnings).held = collector.held ++ warnings := by
  induction warnings generalizing collector with
  | nil => exact (List.append_nil collector.held).symm
  | cons warning others ih =>
      have others_held := ih (collector.add warning)
      rw [addAll, List.foldl_cons, ← addAll, others_held]
      simp [add]

theorem run_forM_receive (warnings : List Warning) :
    (forM warnings receive).run collector = pure ((), collector.addAll warnings) := by
  induction warnings generalizing collector with
  | nil => rfl
  | cons warning others ih => exact ih (collector.add warning)

/-! ## One operation -/

/-- Whatever the collector holds, a specifier resolves as without one. -/
theorem step_resolve (options : Options) (locator : Locator) (current : Path)
    (specifier : Specifier) (file : Path) :
    Operation.step collector (.resolve options locator current specifier file) =
      (.resolution (options.resolve locator current specifier file).resolution,
        collector.addAll (options.resolve locator current specifier file).warnings) := by
  simp [Operation.step, Operation.perform, Options.resolveBy_plainWay, run_forM_receive]

/-- One operation gives away and keeps what was held before and what is given in it. -/
theorem step_keeps (operation : Operation) :
    (operation.step collector).1.takenWarnings ++ (operation.step collector).2.held =
      collector.held ++ operation.given := by
  cases operation with
  | resolve options locator current specifier file =>
      rw [step_resolve]
      exact collector.held_addAll _
  | add warning => rfl
  | look => exact (List.append_nil collector.held).symm
  | drain => rfl

theorem step_resolution? (operation : Operation) :
    (operation.step collector).1.resolution? = operation.resolution? := by
  cases operation with
  | resolve options locator current specifier file =>
      rw [step_resolve]
      rfl
  | add warning => rfl
  | look => rfl
  | drain => rfl

/-! ## A run -/

theorem performAll_cons (operation : Operation) (others : List Operation) :
    collector.performAll (operation :: others) =
      ((operation.step collector).1 :: ((operation.step collector).2.performAll others).1,
        ((operation.step collector).2.performAll others).2) := by
  simp [performAll, Operation.step]

theorem performAll_append (first second : List Operation) :
    collector.performAll (first ++ second) =
      ((collector.performAll first).1 ++ ((collector.performAll first).2.performAll second).1,
        ((collector.performAll first).2.performAll second).2) := by
  simp [performAll, List.mapM_append]

/-- A run gives away and keeps what was held before and what is given in it, in order. -/
theorem performAll_keeps (operations : List Operation) :
    (collector.performAll operations).1.flatMap Answer.takenWarnings ++
        (collector.performAll operations).2.held =
      collector.held ++ operations.flatMap Operation.given := by
  induction operations generalizing collector with
  | nil => exact (List.append_nil collector.held).symm
  | cons operation others ih =>
      have kept := ih (operation.step collector).2
      rw [performAll_cons, List.flatMap_cons, List.flatMap_cons]
      rw [List.append_assoc, kept, ← List.append_assoc, step_keeps, List.append_assoc]

/-- The answers of a run have the resolutions that the specifiers have by themselves. -/
theorem performAll_resolutions (operations : List Operation) :
    (collector.performAll operations).1.filterMap Answer.resolution? =
      operations.filterMap Operation.resolution? := by
  induction operations generalizing collector with
  | nil => rfl
  | cons operation others ih =>
      rw [performAll_cons, List.filterMap_cons, List.filterMap_cons, step_resolution?]
      rw [ih (operation.step collector).2]

theorem performAll_look (before after : List Operation) :
    collector.performAll (before ++ .look :: after) =
      ((collector.performAll before).1 ++ .shown (collector.performAll before).2.held ::
          ((collector.performAll before).2.performAll after).1,
        ((collector.performAll before).2.performAll after).2) := by
  rw [performAll_append, performAll_cons]
  rfl

/--
Over a run, what was given away and what is held are together the warnings that were held
before it and those given in it, none lost, repeated or out of order, and its specifiers resolve
as without a collector. Reading the warnings at any place in a run changes no other answer and
shows all that was not yet given away. A specifier adds at most one warning, the same one
whatever is held.
-/
theorem performAll_keeps_all (operations : List Operation) :
    ((collector.performAll operations).1.flatMap Answer.takenWarnings ++
        (collector.performAll operations).2.held =
      collector.held ++ operations.flatMap Operation.given) ∧
    (collector.performAll operations).1.filterMap Answer.resolution? =
      operations.filterMap Operation.resolution? ∧
    (∀ before after, ∃ first second shown last,
      (collector.performAll before).1 = first ∧
      collector.performAll (before ++ after) = (first ++ second, last) ∧
      collector.performAll (before ++ .look :: after) =
        (first ++ .shown shown :: second, last) ∧
      first.flatMap Answer.takenWarnings ++ shown =
        collector.held ++ before.flatMap Operation.given) ∧
    ∀ options locator current specifier file,
      (options.resolve locator current specifier file).warnings.length ≤ 1 ∧
      ∀ holder : Collector,
        Operation.step holder (.resolve options locator current specifier file) =
          (.resolution (options.resolve locator current specifier file).resolution,
            ⟨holder.held ++ (options.resolve locator current specifier file).warnings⟩) := by
  refine ⟨collector.performAll_keeps operations, collector.performAll_resolutions operations,
    ?_, ?_⟩
  · intro before after
    exact ⟨_, _, _, _, rfl, collector.performAll_append before after,
      collector.performAll_look before after, collector.performAll_keeps before⟩
  · intro options locator current specifier file
    refine ⟨Options.length_warnings_le_one, ?_⟩
    intro holder
    rw [step_resolve, ← held_addAll]

end Collector

end ImportResolution
