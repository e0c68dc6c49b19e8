import ImportResolution.Text
import Mathlib.Data.List.Forall2

/-!
# Computations that may fail

What is known of the steps of a sequence that has succeeded: each of them has, and what
follows a step needs to be looked at for its value alone. A sequence that has failed has
the error of the first step that fails (`mapM_eq_error_iff`). `Yields` states what holds of
a result if there is one.
-/

namespace ImportResolution

variable {ε α β : Type} {first second : Except ε α}

theorem exists_of_bind_eq_ok {next : α → Except ε β} {result : β}
    (succeeds : (first >>= next) = .ok result) :
    ∃ value, first = .ok value ∧ next value = .ok result := by
  cases first with
  | error error => simp [bind, Except.bind] at succeeds
  | ok value => exact ⟨value, rfl, succeeds⟩

theorem exists_of_bind_pure_eq_ok {form : α → β} {result : β}
    (succeeds : (first >>= fun value => pure (form value)) = .ok result) :
    ∃ value, first = .ok value ∧ form value = result := by
  rcases exists_of_bind_eq_ok succeeds with ⟨value, isFirst, formed⟩
  exact ⟨value, isFirst, Except.ok.inj formed⟩

theorem throw_ne_ok {error : ε} {value : α} : (throw error : Except ε α) ≠ .ok value := by
  simp [throw, throwThe, MonadExceptOf.throw]

theorem exists_of_map_toOption {form : α → β} {result : β}
    (succeeds : first.toOption.map form = some result) :
    ∃ value, first = .ok value ∧ form value = result := by
  cases first with
  | error error => contradiction
  | ok value => exact ⟨value, rfl, Option.some.inj succeeds⟩

/-- What follows a step that has succeeded goes on with its value. -/
theorem ok_bind (value : α) (next : α → Except ε β) : (Except.ok value >>= next) = next value :=
  rfl

theorem bind_eq_error_iff {next : α → Except ε β} {error : ε} :
    (first >>= next) = .error error ↔
      first = .error error ∨ ∃ value, first = .ok value ∧ next value = .error error := by
  cases first with
  | error failure => simp [bind, Except.bind]
  | ok value => simp [bind, Except.bind]

/-- What goes on after a success has to agree on that alone. -/
theorem bind_congr_of_ok {next other : α → Except ε β} (sameFirst : first = second)
    (agree : ∀ value, second = .ok value → next value = other value) :
    (first >>= next) = (second >>= other) := by
  subst sameFirst
  cases first with
  | error error => rfl
  | ok value => exact agree value rfl

/-! ## One step for each element of a list -/

/-- An element of a list meets a condition, and none before it does. -/
def IsFirst (elements : List α) (holds : α → Prop) (element : α) : Prop :=
  ∃ before after, elements = before ++ element :: after ∧ holds element ∧
    ∀ earlier ∈ before, ¬holds earlier

theorem isFirst_cons_iff {head element : α} {elements : List α} {holds : α → Prop} :
    IsFirst (head :: elements) holds element ↔
      holds head ∧ element = head ∨ ¬holds head ∧ IsFirst elements holds element := by
  constructor
  · rintro ⟨before, after, listed, elementHolds, notEarlier⟩
    cases before with
    | nil =>
        rcases List.cons.inj listed with ⟨rfl, -⟩
        exact Or.inl ⟨elementHolds, rfl⟩
    | cons earlier before =>
        rcases List.cons.inj listed with ⟨rfl, rest⟩
        rw [List.forall_mem_cons] at notEarlier
        exact Or.inr ⟨notEarlier.1, before, after, rest, elementHolds, notEarlier.2⟩
  · rintro (⟨headHolds, rfl⟩ | ⟨headFails, before, after, rfl, elementHolds, notEarlier⟩)
    · exact ⟨[], elements, rfl, headHolds, nofun⟩
    · exact ⟨head :: before, after, rfl, elementHolds,
        List.forall_mem_cons.mpr ⟨headFails, notEarlier⟩⟩

/-- A computation has no result. -/
def Fails (first : Except ε α) : Prop := ∃ error, first = .error error

theorem not_fails_iff : ¬Fails first ↔ ∃ value, first = .ok value := by
  cases first with
  | error error => simp [Fails]
  | ok value => simp [Fails]

section MapM

variable {step : α → Except ε β} {elements : List α}

/-- The results of a sequence are those of its steps, in order. -/
theorem mapM_eq_ok_iff {results : List β} :
    elements.mapM step = .ok results ↔
      List.Forall₂ (fun element result => step element = .ok result) elements results := by
  induction elements generalizing results with
  | nil => simp [pure, Except.pure, eq_comm]
  | cons element elements ih =>
      rw [List.mapM_cons, List.forall₂_cons_left_iff]
      constructor
      · intro succeeds
        rcases exists_of_bind_eq_ok succeeds with ⟨result, isResult, succeeds⟩
        rcases exists_of_bind_pure_eq_ok succeeds with ⟨others, areOthers, rfl⟩
        exact ⟨result, others, isResult, ih.mp areOthers, rfl⟩
      · rintro ⟨result, others, isResult, areOthers, rfl⟩
        rw [isResult, ih.mpr areOthers]
        rfl

/-- The error of a sequence is that of the first step that fails. -/
theorem mapM_eq_error_iff {error : ε} :
    elements.mapM step = .error error ↔
      ∃ element, IsFirst elements (fun other => Fails (step other)) element ∧
        step element = .error error := by
  induction elements with
  | nil => simp [IsFirst, pure, Except.pure]
  | cons element elements ih =>
      rw [List.mapM_cons, bind_eq_error_iff]
      constructor
      · rintro (failed | ⟨result, isResult, later⟩)
        · exact ⟨element, isFirst_cons_iff.mpr (Or.inl ⟨⟨error, failed⟩, rfl⟩), failed⟩
        · rcases bind_eq_error_iff.mp later with failed | ⟨others, -, succeeded⟩
          · rcases ih.mp failed with ⟨other, first, otherFailed⟩
            have succeeds : ¬Fails (step element) := not_fails_iff.mpr ⟨result, isResult⟩
            exact ⟨other, isFirst_cons_iff.mpr (Or.inr ⟨succeeds, first⟩), otherFailed⟩
          · contradiction
      · rintro ⟨other, first, failed⟩
        rcases isFirst_cons_iff.mp first with ⟨-, rfl⟩ | ⟨succeeds, first⟩
        · exact Or.inl failed
        · rcases not_fails_iff.mp succeeds with ⟨result, isResult⟩
          refine Or.inr ⟨result, isResult, ?_⟩
          rw [ih.mpr ⟨other, first, failed⟩]
          rfl

/-- A sequence succeeds when no step fails. -/
theorem exists_mapM_eq_ok_iff :
    (∃ results, elements.mapM step = .ok results) ↔
      ∀ element ∈ elements, ¬Fails (step element) := by
  induction elements with
  | nil => simp [pure, Except.pure]
  | cons element elements ih =>
      rw [List.forall_mem_cons, ← ih, not_fails_iff]
      constructor
      · rintro ⟨results, succeeds⟩
        rw [mapM_eq_ok_iff, List.forall₂_cons_left_iff] at succeeds
        rcases succeeds with ⟨result, others, isResult, areOthers, -⟩
        exact ⟨⟨result, isResult⟩, others, mapM_eq_ok_iff.mpr areOthers⟩
      · rintro ⟨⟨result, isResult⟩, others, areOthers⟩
        exact ⟨result :: others, mapM_eq_ok_iff.mpr (.cons isResult (mapM_eq_ok_iff.mp areOthers))⟩

end MapM

/-- A condition holds of what a computation gives, if it gives anything. -/
def Yields (holds : α → Prop) (first : Except ε α) : Prop :=
  ∀ value, first = .ok value → holds value

namespace Yields

variable {holds : α → Prop} {wanted : β → Prop}

theorem error (error : ε) : Yields holds (Except.error error) := by
  intro value failed
  contradiction

theorem ok {value : α} (valueHolds : holds value) :
    Yields holds (Except.ok value : Except ε α) := by
  intro other same
  exact Except.ok.inj same ▸ valueHolds

theorem bind {next : α → Except ε β} (firstHolds : Yields holds first)
    (rest : ∀ value, holds value → Yields wanted (next value)) :
    Yields wanted (first >>= next) := by
  cases first with
  | error failure => exact .error failure
  | ok value => exact rest value (firstHolds value rfl)

theorem throw (error : ε) : Yields holds (MonadExcept.throw error : Except ε α) :=
  Yields.error error

theorem map {form : α → β} (firstHolds : Yields holds first)
    (formed : ∀ value, holds value → wanted (form value)) : Yields wanted (first.map form) := by
  cases first with
  | error failure => exact .error failure
  | ok value => exact .ok (formed value (firstHolds value rfl))

/-- What a step gives need not be known where anything may follow it. -/
theorem andThen {next : α → Except ε β} (rest : ∀ value, Yields wanted (next value)) :
    Yields wanted (first >>= next) := by
  cases first with
  | error failure => exact .error failure
  | ok value => exact rest value

/-- What each step keeps is kept by steps for all elements of a list. -/
theorem foldlM {step : α → β → Except ε α} {start : α} (startHolds : holds start)
    (kept : ∀ value element, holds value → Yields holds (step value element)) (elements : List β) :
    Yields holds (elements.foldlM step start) := by
  induction elements generalizing start with
  | nil => exact .ok startHolds
  | cons element elements ih =>
      rw [List.foldlM_cons]
      exact .bind (kept start element startHolds) fun _ => ih

end Yields

end ImportResolution
