import ImportResolution.Locator.Basic
import ImportResolution.Warning

/-!
# Attempts

One attempt to find something: what was found, the warnings given and the
questions asked on the way. Attempts are made one after the other until one of
them finds something, and the later ones are then not made at all.
-/

namespace ImportResolution

/-- What an attempt has found and how. -/
structure Attempt (α : Type) where
  found : Option α
  warnings : List Warning := []
  queries : List Query := []
  deriving DecidableEq, Repr

namespace Attempt

variable {α β : Type}

/-- The attempt that finds nothing and asks nothing. -/
def miss : Attempt α := ⟨none, [], []⟩

/-- The attempt that finds something without asking. -/
def hit (value : α) : Attempt α := ⟨some value, [], []⟩

/-- The attempt that asks one question. -/
def ask (locator : Locator) (query : Query) : Attempt Path :=
  ⟨locator.answer query, [], [query]⟩

/-- The attempt with another form of what it finds. -/
def map (attempt : Attempt α) (form : α → β) : Attempt β :=
  ⟨attempt.found.map form, attempt.warnings, attempt.queries⟩

/-- The second attempt after the first, unless that has found something. -/
def orElse (first second : Attempt α) : Attempt α :=
  match first.found with
  | some _ => first
  | none => ⟨second.found, first.warnings ++ second.warnings, first.queries ++ second.queries⟩

/-- The attempts for the items in order, up to the first that finds something. -/
def firstOf (attempt : β → Attempt α) : List β → Attempt α
  | [] => miss
  | item :: items => (attempt item).orElse (firstOf attempt items)

end Attempt

end ImportResolution
