import ImportResolution.Text

/-!
# Pieces of a text

Splitting a text at a separator and joining pieces are inverse to each other as long
as no piece holds the separator. This file gives that correspondence in the form in
which paths and specifiers use it: how pieces behave when texts are put together, and
what stands after the last separator.
-/

namespace ImportResolution

namespace Text

variable {separator : Char}

/-- A separator between two texts splits them into the pieces of both. -/
theorem split_append_separator (left right : Text) :
    split separator (left ++ separator :: right) =
      split separator left ++ split separator right := by
  induction left with
  | nil => simp [split]
  | cons char rest ih =>
      by_cases isSeparator : char = separator
      · simp only [List.cons_append, split, isSeparator, if_true, ih]
      · simp only [List.cons_append, split, isSeparator, if_false, ih]
        cases pieces : split separator rest with
        | nil => exact absurd pieces (split_ne_nil separator rest)
        | cons piece others => simp

theorem split_of_not_mem {piece : Text} (absent : separator ∉ piece) :
    split separator piece = [piece] := by
  induction piece with
  | nil => rfl
  | cons char rest ih =>
      rw [List.mem_cons, not_or] at absent
      rcases absent with ⟨different, absent⟩
      simp [split, Ne.symm different, ih absent]

theorem not_mem_of_mem_split {text piece : Text} (piece_mem : piece ∈ split separator text) :
    separator ∉ piece := by
  induction text generalizing piece with
  | nil =>
      simp only [split, List.mem_singleton] at piece_mem
      simp [piece_mem]
  | cons char rest ih =>
      by_cases isSeparator : char = separator
      · simp only [split, isSeparator, if_true, List.mem_cons] at piece_mem
        rcases piece_mem with rfl | piece_mem
        · simp
        · exact ih piece_mem
      · simp only [split, isSeparator, if_false] at piece_mem
        cases pieces : split separator rest with
        | nil => exact absurd pieces (split_ne_nil separator rest)
        | cons first others =>
            rw [pieces] at ih piece_mem
            simp only [List.mem_cons] at piece_mem
            rcases piece_mem with rfl | piece_mem
            · rw [List.mem_cons, not_or]
              exact ⟨Ne.symm isSeparator, ih (by simp)⟩
            · exact ih (by simp [piece_mem])

theorem joinWith_concat {pieces : List Text} (nonempty : pieces ≠ []) (last : Text) :
    joinWith separator (pieces ++ [last]) = joinWith separator pieces ++ separator :: last := by
  induction pieces with
  | nil => exact absurd rfl nonempty
  | cons piece others ih =>
      cases others with
      | nil => simp [joinWith]
      | cons next others =>
          have rest := ih (by simp)
          simp only [List.cons_append, joinWith] at rest ⊢
          rw [rest]
          simp

theorem joinWith_concat_append (pieces : List Text) (last ending : Text) :
    joinWith separator (pieces ++ [last]) ++ ending =
      joinWith separator (pieces ++ [last ++ ending]) := by
  by_cases first : pieces = []
  · simp [first, joinWith]
  · simp [joinWith_concat first]

/-- A join ends as its last piece does, if that is not empty. -/
theorem getLast?_joinWith_concat (pieces : List Text) {last : Text} (nonempty : last ≠ []) :
    (joinWith separator (pieces ++ [last])).getLast? = last.getLast? := by
  by_cases first : pieces = []
  · simp [first, joinWith]
  · have ends := List.getLast?_isSome.mpr nonempty
    rw [joinWith_concat first, List.getLast?_append, List.getLast?_cons]
    cases ending : last.getLast? <;> simp_all

/-- Fewer pieces make no longer a text. -/
theorem length_joinWith_le {pieces more : List Text} (begins : pieces <+: more) :
    (joinWith separator pieces).length ≤ (joinWith separator more).length := by
  rcases begins with ⟨others, rfl⟩
  induction pieces with
  | nil => simp [joinWith]
  | cons piece pieces ih =>
      cases pieces with
      | nil => cases others <;> simp [joinWith]
      | cons next pieces => simpa [joinWith] using ih

/-- Pieces without the separator are what splitting their join gives back. -/
theorem split_joinWith {pieces : List Text} (nonempty : pieces ≠ [])
    (absent : ∀ piece ∈ pieces, separator ∉ piece) :
    split separator (joinWith separator pieces) = pieces := by
  induction pieces with
  | nil => exact absurd rfl nonempty
  | cons piece others ih =>
      have pieceAbsent : separator ∉ piece := absent piece (by simp)
      cases others with
      | nil => exact split_of_not_mem pieceAbsent
      | cons next others =>
          simp only [joinWith, split_append_separator, split_of_not_mem pieceAbsent]
          rw [ih (by simp) fun piece piece_mem => absent piece (by simp [piece_mem])]
          rfl

theorem mem_joinWith {pieces : List Text} {char : Char}
    (char_mem : char ∈ joinWith separator pieces) :
    char = separator ∨ ∃ piece ∈ pieces, char ∈ piece := by
  induction pieces with
  | nil => simp [joinWith] at char_mem
  | cons piece others ih =>
      cases others with
      | nil => exact Or.inr ⟨piece, by simp, char_mem⟩
      | cons next others =>
          simp only [joinWith, List.mem_append, List.mem_cons] at char_mem
          rcases char_mem with inPiece | isSeparator | inOthers
          · exact Or.inr ⟨piece, by simp, inPiece⟩
          · exact Or.inl isSeparator
          · rcases ih inOthers with isSeparator | ⟨other, other_mem, inOther⟩
            · exact Or.inl isSeparator
            · exact Or.inr ⟨other, by simp [other_mem], inOther⟩

theorem mem_joinWith_of_mem {pieces : List Text} {piece : Text} {char : Char}
    (piece_mem : piece ∈ pieces) (char_mem : char ∈ piece) :
    char ∈ joinWith separator pieces := by
  induction pieces with
  | nil => simp at piece_mem
  | cons first others ih =>
      cases others with
      | nil =>
          simp only [List.mem_singleton] at piece_mem
          simpa [joinWith, ← piece_mem] using char_mem
      | cons next others =>
          simp only [joinWith, List.mem_append, List.mem_cons]
          rcases List.mem_cons.mp piece_mem with rfl | piece_mem
          · exact Or.inl char_mem
          · exact Or.inr (Or.inr (ih piece_mem))

/-- Two texts that end in a separator and a piece without it have the same last piece. -/
theorem separator_cons_isSuffixOf {left piece ending : Text} (pieceAbsent : separator ∉ piece)
    (endingAbsent : separator ∉ ending) :
    separator :: ending <:+ left ++ separator :: piece ↔ ending = piece := by
  constructor
  · rintro ⟨before, same⟩
    have pieces := congrArg (split separator) same
    rw [split_append_separator, split_append_separator, split_of_not_mem pieceAbsent,
      split_of_not_mem endingAbsent] at pieces
    exact List.singleton_inj.mp (List.append_inj_right' pieces rfl)
  · rintro rfl
    exact ⟨left, rfl⟩

theorem replaceChar_of_not_mem {old new : Char} {text : Text} (absent : old ∉ text) :
    replaceChar old new text = text := by
  have unchanged : ∀ char ∈ text, (if char = old then new else char) = id char := by
    intro char char_mem
    have different : char ≠ old := fun same => absent (same ▸ char_mem)
    simp [different]
  rw [replaceChar, List.map_congr_left unchanged, List.map_id]

theorem not_mem_replaceChar {old new : Char} (different : old ≠ new) (text : Text) :
    old ∉ replaceChar old new text := by
  intro old_mem
  rcases List.mem_map.mp old_mem with ⟨char, -, same⟩
  split at same
  · exact different same.symm
  · contradiction

theorem splitAtLast?_eq_none_iff {test : Char → Bool} {text : Text} :
    splitAtLast? test text = none ↔ ∀ char ∈ text, test char = false := by
  induction text with
  | nil => simp [splitAtLast?]
  | cons char rest ih =>
      rw [splitAtLast?]
      cases later : splitAtLast? test rest with
      | some pieces => simp [← ih, later]
      | none => simp [← ih, later]

/-- The split is made at a character that passes the test when none after it does. -/
theorem splitAtLast?_append {test : Char → Bool} {char : Char} {after : Text} (before : Text)
    (passes : test char = true) (fails : ∀ other ∈ after, test other = false) :
    splitAtLast? test (before ++ char :: after) = some (before, after) := by
  induction before with
  | nil => simp [splitAtLast?, splitAtLast?_eq_none_iff.mpr fails, passes]
  | cons first rest ih => simp [splitAtLast?, ih]

theorem eq_append_of_splitAtLast? {test : Char → Bool} {text before after : Text}
    (split : splitAtLast? test text = some (before, after)) :
    ∃ char, text = before ++ char :: after ∧ test char = true ∧
      ∀ other ∈ after, test other = false := by
  induction text generalizing before with
  | nil => simp [splitAtLast?] at split
  | cons char rest ih =>
      rw [splitAtLast?] at split
      cases later : splitAtLast? test rest with
      | some pieces =>
          rw [later] at split
          rcases Prod.mk.inj (Option.some.inj split) with ⟨rfl, rfl⟩
          rcases ih later with ⟨separator, whole, passes, fails⟩
          exact ⟨separator, by rw [whole]; rfl, passes, fails⟩
      | none =>
          by_cases passes : test char = true
          · rw [later, if_pos passes] at split
            rcases Prod.mk.inj (Option.some.inj split) with ⟨rfl, rfl⟩
            exact ⟨char, rfl, passes, splitAtLast?_eq_none_iff.mp later⟩
          · simp [later, passes] at split

end Text

end ImportResolution
