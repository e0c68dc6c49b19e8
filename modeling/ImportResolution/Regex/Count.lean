import ImportResolution.Regex.Flags
import ImportResolution.Regex.Syntax

/-!
# Repetition in a pattern

The operators `?`, `*` and `+`, and the bounds between braces. A question mark after
any of them turns its preference around.
-/

namespace ImportResolution

namespace Regex

namespace Parser

/-- An expression with the number of levels that its tree nests. -/
structure Item where
  expr : Expr
  height : Nat := 0

/-- A repetition operator: its bounds, and whether it prefers more. -/
structure Count where
  least : Nat
  most : Option Nat
  greedy : Bool
  deriving DecidableEq, Repr

/-- Whether a question mark follows that makes a repetition prefer less. -/
def laziness (text : Text) : Bool × Text :=
  match text with
  | '?' :: rest => (true, rest)
  | rest => (false, rest)

/-- The bounds in braces, after the opening one. -/
def bounds (flags : Flags) (text : Text) : Except Error (Nat × Option Nat × Text) :=
  match skipSpace flags text with
  | [] => .error .countUnclosed
  | text => do
      let (least, rest) ← decimal flags text
      let (most, rest) ←
        match rest with
        | [] => throw .countUnclosedAfterMin
        | ',' :: rest =>
            match skipSpace flags rest with
            | [] => throw .countUnclosedAfterComma
            | '\x7d' :: rest => pure (none, '\x7d' :: rest)
            | rest =>
                let (most, rest) ← decimal flags rest
                if rest.isEmpty then throw .countUnclosedAfterMax
                pure (some most, rest)
        | rest => pure (some least, rest)
      match rest with
      | '\x7d' :: rest => pure (least, most, rest)
      | _ => throw .countInvalid

/-- A repetition in braces, after the opening one. -/
def counted (flags : Flags) (text : Text) : Except Error (Count × Text) := do
  let (least, most, rest) ← bounds flags text
  let (lazy, rest) := laziness (skipSpace flags rest)
  match most with
  | some limit => if limit < least then throw .countReversed
  | none => pure ()
  pure (⟨least, most, lazy == flags.swapGreed⟩, rest)

/-- The repetition of a `?`, `*` or `+`, with the text after the operator. -/
def uncounted (flags : Flags) (least : Nat) (most : Option Nat) (text : Text) : Count × Text :=
  let (lazy, rest) := laziness text
  (⟨least, most, lazy == flags.swapGreed⟩, rest)

/-- An item repeated; no repetition at all is empty, and exactly one is the item itself. -/
def Count.apply (count : Count) (item : Item) : Item :=
  if count.least = 0 && count.most = some 0 then ⟨.empty, 0⟩
  else if count.least = 1 && count.most = some 1 then item
  else ⟨.repetition count.least count.most count.greedy item.expr, item.height + 1⟩

end Parser

end Regex

end ImportResolution
