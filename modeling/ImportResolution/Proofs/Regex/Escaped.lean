import ImportResolution.Regex.Parser

/-!
# Reading an escaped text

What `Regex.escape` makes of a text is read as its characters, one item for each, in the
place where it stands in a pattern.

Main statement: `Parser.parseGroup_escape`.
-/

namespace ImportResolution

namespace Regex

namespace Parser

theorem isEscapable_of_isMeta {char : Char} (isMeta : isMeta char = true) :
    isEscapable char = true := by
  simp [isEscapable, isMeta]

theorem isDigit_eq_false_of_isMeta {char : Char} (isMeta : isMeta char = true) :
    char.isDigit = false := by
  simp only [Regex.isMeta, decide_eq_true_eq] at isMeta
  rw [← Bool.not_eq_true']
  exact (List.all_eq_true (p := fun other => !other.isDigit)).mp (by decide) char isMeta

/-- An escaped character that has a meaning is read as itself. -/
theorem primitive_backslash {char : Char} (isMeta : isMeta char = true) (rest : Text) :
    primitive {} ('\\' :: char :: rest) = .ok (.char char, rest) := by
  simp [primitive, escapeSequence, isDigit_eq_false_of_isMeta isMeta,
    isEscapable_of_isMeta isMeta, literal]

theorem primitive_char {char : Char} (plain : isMeta char = false) (rest : Text) :
    primitive {} (char :: rest) = .ok (.char char, rest) := by
  have ne {other : Char} (isMeta : isMeta other = true) : char ≠ other := by
    rintro rfl
    rw [plain] at isMeta
    contradiction
  rw [primitive.eq_def]
  split
  · contradiction
  · rename_i same
    exact absurd (List.cons.inj same).1 (ne (by decide))
  · rename_i same
    exact absurd (List.cons.inj same).1 (ne (by decide))
  · rename_i same
    exact absurd (List.cons.inj same).1 (ne (by decide))
  · rename_i same
    exact absurd (List.cons.inj same).1 (ne (by decide))
  · rename_i same
    cases same
    rfl

/-- The characters with which a group does not simply go on. -/
def isOperator (char : Char) : Bool :=
  char ∈ ['(', ')', '|', '[', '?', '*', '+', '\x7b']

theorem isMeta_of_isOperator {char : Char} (operator : isOperator char = true) :
    isMeta char = true := by
  simp only [isOperator, decide_eq_true_eq] at operator
  exact (List.all_eq_true (p := Regex.isMeta)).mp (by decide) char operator

variable {fuel depth groups : Nat} {names : List (Text × Nat)} {alternatives sequence : List Item}

/-- What begins with no operator is read as one more item of the sequence. -/
theorem parseGroup_primitive {text rest : Text} {expr : Expr}
    (other : ∀ char ∈ text.head?, isOperator char = false)
    (read : primitive {} text = .ok (expr, rest)) :
    parseGroup (fuel + 1) depth ⟨text, {}, groups, names⟩ alternatives sequence =
      parseGroup fuel depth ⟨rest, {}, groups, names⟩ alternatives (⟨expr, 0⟩ :: sequence) := by
  cases text with
  | nil => simp [primitive] at read
  | cons char text =>
      have notOperator : isOperator char = false := other char rfl
      have begins {other : Char} {others : Text} (operator : isOperator other = true) :
          skipSpace {} (char :: text) ≠ other :: others := by
        rintro ⟨⟩
        rw [notOperator] at operator
        contradiction
      rw [parseGroup]
      dsimp only
      split
      · contradiction
      · exact absurd ‹_› (begins rfl)
      · exact absurd ‹_› (begins rfl)
      · exact absurd ‹_› (begins rfl)
      · exact absurd ‹_› (begins rfl)
      · exact absurd ‹_› (begins rfl)
      · exact absurd ‹_› (begins rfl)
      · exact absurd ‹_› (begins rfl)
      · exact absurd ‹_› (begins rfl)
      · have whole : skipSpace {} (char :: text) = char :: text := rfl
        rw [whole, read]
        rfl

/-- The items that stand for the characters of a text. -/
def charItems (text : Text) : List Item :=
  text.map fun char => ⟨.char char, 0⟩

theorem foldl_max_charItems (text : Text) (height : Nat) :
    ((charItems text).map Item.height).foldl max height = height := by
  induction text generalizing height with
  | nil => rfl
  | cons char text ih =>
      rw [charItems, List.map_cons, List.map_cons, List.foldl_cons, Nat.max_zero]
      exact ih height

theorem parseGroup_escape_cons (char : Char) (text rest : Text) :
    parseGroup (fuel + 1) depth ⟨escape (char :: text) ++ rest, {}, groups, names⟩ alternatives
        sequence =
      parseGroup fuel depth ⟨escape text ++ rest, {}, groups, names⟩ alternatives
        (⟨.char char, 0⟩ :: sequence) := by
  cases special : isMeta char with
  | true =>
      have escaped : escape (char :: text) ++ rest = '\\' :: char :: (escape text ++ rest) := by
        simp [escape, special]
      rw [escaped]
      refine parseGroup_primitive ?_ (primitive_backslash special _)
      rintro first ⟨⟩
      rfl
  | false =>
      have escaped : escape (char :: text) ++ rest = char :: (escape text ++ rest) := by
        simp [escape, special]
      rw [escaped]
      refine parseGroup_primitive ?_ (primitive_char special _)
      rintro first ⟨⟩
      rw [← Bool.not_eq_true]
      intro operator
      rw [isMeta_of_isOperator operator] at special
      contradiction

/-- An escaped text is read as its characters, in as many steps. -/
theorem parseGroup_escape (text rest : Text) :
    parseGroup (fuel + text.length) depth ⟨escape text ++ rest, {}, groups, names⟩ alternatives
        sequence =
      parseGroup fuel depth ⟨rest, {}, groups, names⟩ alternatives
        ((charItems text).reverse ++ sequence) := by
  induction text generalizing sequence with
  | nil => rfl
  | cons char text ih =>
      rw [List.length_cons, ← Nat.add_assoc, parseGroup_escape_cons, ih]
      simp [charItems]

theorem length_le_length_escape (text : Text) : text.length ≤ (escape text).length := by
  induction text with
  | nil => exact Nat.le_refl 0
  | cons char text ih =>
      rw [escape, List.flatMap_cons, List.length_append, List.length_cons]
      have atLeastOne : 1 ≤ (if isMeta char then ['\\', char] else [char]).length := by
        split <;> simp
      rw [escape] at ih
      omega

/-- Several items stand in a node one level above the highest of them. -/
theorem combine_cons {first : Item} {rest : List Item} (ne_nil : rest ≠ []) :
    combine Expr.seq (first :: rest) =
      ⟨.seq (first.expr :: rest.map Item.expr),
        (rest.map Item.height).foldl max first.height + 1⟩ := by
  cases rest with
  | nil => contradiction
  | cons second rest => simp [combine]

end Parser

end Regex

end ImportResolution
