import ImportResolution.Glob.Pattern
import ImportResolution.Proofs.Outcome
import ImportResolution.Proofs.Path.Names

/-!
# The segments of a glob pattern

A pattern that is a clean path is read name by name (`Glob.mapM_readSegment_of_segments`), and
what stands in front of a pattern is read like the pattern itself. A name without wildcards is
read as the segment that stands for it alone, and there is no other way to such a segment.
-/

namespace ImportResolution

namespace Glob

open ImportResolution.Path (AreNames)

variable {text name : Text} {names : List Text} {segment : Segment}

/-! ## One name -/

theorem tokensFrom_of_plain {fuel position : Nat} {previous : Option Char}
    (plain : hasWildcard text = false) (enough : text.length < fuel) :
    tokensFrom fuel position previous text = .ok (text.map .char) := by
  induction fuel generalizing position previous text with
  | zero => omega
  | succ fuel ih =>
      cases text with
      | nil => rfl
      | cons char rest =>
          simp only [hasWildcard, List.any_cons, Bool.or_eq_false_iff, beq_eq_false_iff_ne,
            List.length_cons] at plain enough
          rcases plain with ⟨⟨⟨notRun, notAny⟩, notSet⟩, restPlain⟩
          have read : tokensFrom fuel (position + 1) (some char) rest = .ok (rest.map .char) :=
            ih restPlain (by omega)
          unfold tokensFrom
          split <;> simp_all [bind, Except.bind, pure, Except.pure]

theorem spelledName?_map_char (text : Text) : spelledName? (text.map .char) = some text := by
  induction text with
  | nil => rfl
  | cons char rest ih => simp [spelledName?, ih]

/-- Brackets are no character of a name. -/
theorem spelledName?_of_bracket? {token : Token} {left : Text} (tokens : List Token)
    (closed : bracket? text = some (token, left)) : spelledName? (token :: tokens) = none := by
  unfold bracket? at closed
  dsimp only at closed
  split at closed
  · contradiction
  · split at closed
    · rcases Prod.mk.inj (Option.some.inj closed) with ⟨rfl, -⟩
      rfl
    · contradiction

/-- Only the text itself is read as a name without wildcards. -/
theorem eq_of_spelledName? {fuel position : Nat} {previous : Option Char} {tokens : List Token}
    (enough : text.length < fuel) (read : tokensFrom fuel position previous text = .ok tokens)
    (spelled : spelledName? tokens = some name) : name = text := by
  induction fuel generalizing position previous text tokens name with
  | zero => omega
  | succ fuel ih =>
      unfold tokensFrom at read
      split at read
      · rw [← Except.ok.inj read] at spelled
        exact (Option.some.inj spelled).symm
      · rcases exists_of_bind_pure_eq_ok read with ⟨others, -, rfl⟩
        contradiction
      · contradiction
      · split at read
        · split at read
          · rw [← Except.ok.inj read] at spelled
            contradiction
          · rcases exists_of_bind_pure_eq_ok read with ⟨others, -, rfl⟩
            contradiction
          · contradiction
        · contradiction
      · rcases exists_of_bind_pure_eq_ok read with ⟨others, -, rfl⟩
        contradiction
      · split at read
        · rename_i closed
          rcases exists_of_bind_pure_eq_ok read with ⟨others, -, rfl⟩
          simp [spelledName?_of_bracket? others closed] at spelled
        · contradiction
      · rcases exists_of_bind_pure_eq_ok read with ⟨others, rest, rfl⟩
        rcases Option.map_eq_some_iff.mp spelled with ⟨ending, restSpelled, rfl⟩
        simp only [List.length_cons] at enough
        rw [ih (by omega) rest restSpelled]

/-- The segment that a name of a pattern is read as. -/
def readSegment (name : Text) : Except Error Segment := do
  pure (Segment.ofTokens (← tokens name))

theorem readSegment_of_plain (plain : hasWildcard name = false) :
    readSegment name = .ok (.literal name) := by
  have read : tokens name = .ok (name.map .char) :=
    tokensFrom_of_plain plain (Nat.lt_succ_self _)
  have noneRecursive : Token.recursive ∉ name.map .char := by simp
  rw [readSegment, read]
  simp [bind, Except.bind, pure, Except.pure, Segment.ofTokens, noneRecursive,
    spelledName?_map_char]

theorem eq_of_readSegment_literal (read : readSegment text = .ok (.literal name)) :
    name = text := by
  rcases exists_of_bind_pure_eq_ok read with ⟨tokens, tokensRead, literal⟩
  unfold Segment.ofTokens at literal
  split at literal
  · contradiction
  · split at literal
    · rename_i spelled
      rw [Segment.literal.injEq] at literal
      exact eq_of_spelledName? (Nat.lt_succ_self _) tokensRead (literal ▸ spelled)
    · contradiction

/-! ## One name after the other -/

/-- A clean path is read as a pattern name by name. -/
theorem mapM_readSegment_of_segments {read : List Segment} (all : AreNames names)
    (nonempty : names ≠ []) (isRead : segments (Path.rooted names) = .ok read) :
    names.mapM readSegment = .ok read := by
  rcases exists_of_bind_eq_ok isRead with ⟨-, -, byName⟩
  have split : Text.split '/' ((Path.rooted names).drop 1) = names :=
    Text.split_joinWith nonempty all.no_slash
  rw [split] at byName
  exact byName

theorem exists_of_mapM_append {first second : List Text} {read : List Segment}
    (isRead : (first ++ second).mapM readSegment = .ok read) :
    ∃ above below, read = above ++ below ∧ first.mapM readSegment = .ok above ∧
      second.mapM readSegment = .ok below := by
  rw [List.mapM_append] at isRead
  rcases exists_of_bind_eq_ok isRead with ⟨above, firstRead, isRead⟩
  rcases exists_of_bind_pure_eq_ok isRead with ⟨below, secondRead, rfl⟩
  exact ⟨above, below, rfl, firstRead, secondRead⟩

theorem mapM_readSegment_of_plain (plain : ∀ name ∈ names, hasWildcard name = false) :
    names.mapM readSegment = .ok (names.map .literal) := by
  induction names with
  | nil => rfl
  | cons name names ih =>
      rw [List.forall_mem_cons] at plain
      rw [List.mapM_cons, readSegment_of_plain plain.1, ih plain.2]
      rfl

theorem exists_of_mem_mapM {read : List Segment} (isRead : names.mapM readSegment = .ok read)
    (segment_mem : segment ∈ read) : ∃ name ∈ names, readSegment name = .ok segment := by
  induction names generalizing read with
  | nil =>
      rw [← Except.ok.inj isRead] at segment_mem
      simp at segment_mem
  | cons name names ih =>
      rw [List.mapM_cons] at isRead
      rcases exists_of_bind_eq_ok isRead with ⟨first, firstRead, isRead⟩
      rcases exists_of_bind_pure_eq_ok isRead with ⟨others, othersRead, rfl⟩
      rcases List.mem_cons.mp segment_mem with rfl | later
      · exact ⟨name, by simp, firstRead⟩
      · rcases ih othersRead later with ⟨other, other_mem, otherRead⟩
        exact ⟨other, by simp [other_mem], otherRead⟩

end Glob

end ImportResolution
