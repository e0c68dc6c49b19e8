import ImportResolution.Regex.Bracket
import ImportResolution.Regex.Group

/-!
# Reading a regular expression

A pattern is read from left to right. What is in force at a place are the flags,
which a group restores when it closes, and the groups opened so far. A scanner
holds both with the text that is left, and every step takes at least one character
from it, so the length of the pattern bounds the number of steps.

`Regex.Parser.parse` gives the expression with its group names, or the first error.
-/

namespace ImportResolution

namespace Regex

namespace Parser

/-- How deep groups, and the expressions in the finished tree, may nest. -/
def nestLimit : Nat := 50

/-- Items under one node; a single one needs no node. -/
def combine (node : List Expr → Expr) : List Item → Item
  | [] => ⟨.empty, 0⟩
  | [item] => item
  | items => ⟨node (items.map Item.expr), (items.map Item.height).foldl max 0 + 1⟩

/-- The alternatives and the sequence read so far, both last first, as one item. -/
def finish (alternatives sequence : List Item) : Item :=
  combine Expr.alt (combine Expr.seq sequence.reverse :: alternatives).reverse

/-- The sequence with its last item repeated. -/
def applyCount (count : Count) (error : Error) : List Item → Except Error (List Item)
  | [] => .error error
  | item :: items => .ok (count.apply item :: items)

/--
The rest of a group, or of the pattern at depth one. The items of the current
sequence and the finished alternatives are kept last first.
-/
def parseGroup : (fuel : Nat) → (depth : Nat) → Scanner → (alternatives sequence : List Item) →
    Except Error (Item × Scanner)
  | 0, _, _, _, _ => .error .tooMuchNesting
  | fuel + 1, depth, scanner, alternatives, sequence =>
      let flags := scanner.flags
      match skipSpace flags scanner.rest with
      | [] => .ok (finish alternatives sequence, { scanner with rest := [] })
      | '(' :: rest => do
          let (start, inner) ← groupStart { scanner with rest }
          match start with
          | .flags =>
              parseGroup fuel depth { inner with rest := inner.rest.tail } alternatives sequence
          | start =>
              if depth > nestLimit then throw .tooMuchNesting
              let (body, outer) ← parseGroup fuel (depth + 1) inner [] []
              match outer.rest with
              | ')' :: rest =>
                  parseGroup fuel depth { outer with rest, flags } alternatives
                    (start.close body :: sequence)
              | _ => throw .unclosedGroup
      | ')' :: rest =>
          if depth ≤ 1 then .error .unopenedGroup
          else .ok (finish alternatives sequence, { scanner with rest := ')' :: rest })
      | '|' :: rest =>
          parseGroup fuel depth { scanner with rest }
            (combine Expr.seq sequence.reverse :: alternatives) []
      | '[' :: rest => do
          let (expr, rest) ← bracketClass flags rest
          parseGroup fuel depth { scanner with rest } alternatives (⟨expr, 0⟩ :: sequence)
      | '?' :: rest => do
          let (count, rest) := uncounted flags 0 (some 1) rest
          parseGroup fuel depth { scanner with rest } alternatives
            (← applyCount count .nothingToRepeat sequence)
      | '*' :: rest => do
          let (count, rest) := uncounted flags 0 none rest
          parseGroup fuel depth { scanner with rest } alternatives
            (← applyCount count .nothingToRepeat sequence)
      | '+' :: rest => do
          let (count, rest) := uncounted flags 1 none rest
          parseGroup fuel depth { scanner with rest } alternatives
            (← applyCount count .nothingToRepeat sequence)
      | '\x7b' :: rest => do
          if sequence.isEmpty then throw .nothingToCount
          let (count, rest) ← counted flags rest
          parseGroup fuel depth { scanner with rest } alternatives
            (← applyCount count .nothingToCount sequence)
      | text => do
          let (expr, rest) ← primitive flags text
          parseGroup fuel depth { scanner with rest } alternatives (⟨expr, 0⟩ :: sequence)

/-- A whole pattern with its expression and the state at its end. -/
def parse (pattern : Text) : Except Error (Expr × Scanner) := do
  let (item, scanner) ← parseGroup (pattern.length + 1) 1 { rest := pattern } [] []
  if item.height > nestLimit then throw .tooMuchNesting
  pure (item.expr, scanner)

end Parser

end Regex

end ImportResolution
