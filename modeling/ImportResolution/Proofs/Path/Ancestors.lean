import ImportResolution.Proofs.Path.Relative
import Mathlib.Data.List.Infix

/-!
# The directories above a path

`Path.ancestors` climbs from a path to the directory above it until there is none, and it
never stops before that: each climb takes something from the text, so the length of the
path is enough fuel (`Path.isClimb_ancestors`). What one climb keeps therefore holds of all
the directories above (`Path.IsClimb.of_mem`). From a clean path the climb goes through all
its beginnings, the longest first, and ends at the root (`Path.ancestors_rooted`).
-/

namespace ImportResolution

namespace Path

/-! ## Climbing takes something from the text -/

theorem headAndBody_joinWith (path : Path) :
    (headAndBody path).1 ++ Text.joinWith '/' (headAndBody path).2 = path := by
  have headed := headAndBody.eq_def path
  split at headed
  · rename_i body
    rw [headed, pieces, Text.joinWith_split]
    rfl
  · rfl
  · rename_i body
    have split : pieces ('/' :: body) = [] :: pieces body := by
      simp [pieces, Text.split]
    rw [headed, ← split, pieces, Text.joinWith_split]
    rfl
  · rw [headed, pieces, Text.joinWith_split]
    rfl

theorem trimBlanks_isPrefixOf (pieces : List Text) : trimBlanks pieces <+: pieces := by
  rw [← List.reverse_suffix, trimBlanks, List.reverse_reverse]
  exact List.dropWhile_suffix isBlank

theorem isBlank_eq_false_of_trimBlanks {pieces before : List Text} {last : Text}
    (trimmed : trimBlanks pieces = before ++ [last]) : isBlank last = false := by
  have first : (pieces.reverse.dropWhile isBlank).head? = some last := by
    have reversed := congrArg List.reverse trimmed
    rw [trimBlanks, List.reverse_reverse] at reversed
    simp [reversed]
  have notBlank := List.head?_dropWhile_not isBlank pieces.reverse
  rw [first] at notBlank
  simpa using notBlank

theorem length_lt_of_parent? {path above : Path} (parent : path.parent? = some above) :
    above.length < path.length := by
  have whole := congrArg List.length (headAndBody_joinWith path)
  rw [List.length_append] at whole
  unfold parent? at parent
  dsimp only at parent
  split at parent
  · split at parent
    · rename_i self
      rw [self] at whole
      rw [← Option.some.inj parent]
      simp only [List.length_nil, List.length_singleton] at whole ⊢
      omega
    · contradiction
  · rename_i piece others taken
    rcases List.eq_nil_or_concat' (piece :: others) with none | ⟨before, last, ends⟩
    · simp at none
    · rw [ends] at taken parent
      have notBlank := isBlank_eq_false_of_trimBlanks taken
      have nonempty : 0 < last.length := by
        rw [List.length_pos_iff]
        rintro rfl
        simp [isBlank] at notBlank
      have shorter : (Text.joinWith '/' (trimBlanks before)).length ≤
          (Text.joinWith '/' before).length :=
        Text.length_joinWith_le (trimBlanks_isPrefixOf before)
      have atLeast : (Text.joinWith '/' (before ++ [last])).length ≤
          (Text.joinWith '/' (headAndBody path).2).length :=
        Text.length_joinWith_le (taken ▸ trimBlanks_isPrefixOf (headAndBody path).2)
      have oneLess : (Text.joinWith '/' before).length + last.length ≤
          (Text.joinWith '/' (before ++ [last])).length := by
        by_cases alone : before = []
        · simp [alone, Text.joinWith]
        · rw [Text.joinWith_concat alone, List.length_append, List.length_cons]
          omega
      rw [List.dropLast_concat] at parent
      rw [← Option.some.inj parent, List.length_append]
      omega

/-! ## The whole climb -/

/-- A path, the directory above it, and so on up to one that has none above. -/
inductive IsClimb : Path → List Path → Prop
  | top {path : Path} (none : path.parent? = none) : IsClimb path [path]
  | up {path above : Path} {higher : List Path} (parent : path.parent? = some above)
      (climb : IsClimb above higher) : IsClimb path (path :: higher)

theorem isClimb_ancestorsFrom {fuel : Nat} {path : Path} (enough : path.length ≤ fuel) :
    IsClimb path (ancestorsFrom fuel path) := by
  induction fuel generalizing path with
  | zero =>
      have empty : path = [] := by simpa using enough
      subst empty
      exact .top rfl
  | succ fuel ih =>
      unfold ancestorsFrom
      split
      · rename_i parent
        have shorter := length_lt_of_parent? parent
        exact .up parent (ih (by omega))
      · rename_i none
        exact .top none

/-- The climb from a path is not cut short. -/
theorem isClimb_ancestors (path : Path) : IsClimb path path.ancestors :=
  isClimb_ancestorsFrom (Nat.le_refl path.length)

theorem IsClimb.unique {path : Path} {first second : List Path} (firstClimb : IsClimb path first)
    (secondClimb : IsClimb path second) : first = second := by
  induction firstClimb generalizing second with
  | top none =>
      cases secondClimb with
      | top _ => rfl
      | up parent _ => simp [none] at parent
  | up parent _ ih =>
      cases secondClimb with
      | top none => simp [none] at parent
      | up otherParent climb =>
          rw [parent, Option.some.injEq] at otherParent
          subst otherParent
          rw [ih climb]

theorem IsClimb.of_mem {Holds : Path → Prop} {path above : Path} {climbed : List Path}
    (climb : IsClimb path climbed)
    (climbs : ∀ {path above : Path}, Holds path → path.parent? = some above → Holds above)
    (holds : Holds path) (above_mem : above ∈ climbed) : Holds above := by
  induction climb with
  | top _ => exact List.mem_singleton.mp above_mem ▸ holds
  | up parent _ ih =>
      rcases List.mem_cons.mp above_mem with rfl | higher
      · exact holds
      · exact ih (climbs holds parent) higher

theorem isAbsolute_of_mem_ancestors {path above : Path} (absolute : path.isAbsolute)
    (above_mem : above ∈ path.ancestors) : above.isAbsolute = true :=
  (isClimb_ancestors path).of_mem isAbsolute_of_parent? absolute above_mem

theorem IsNormal.of_mem_ancestors {path above : Path} (normal : path.IsNormal)
    (above_mem : above ∈ path.ancestors) : above.IsNormal :=
  (isClimb_ancestors path).of_mem IsNormal.of_parent? normal above_mem

theorem isClimb_rooted {names : List Text} (all : AreNames names) :
    IsClimb (rooted names) (names.inits.reverse.map rooted) := by
  induction names using List.reverseRecOn with
  | nil => exact .top parent?_rooted_nil
  | append_singleton above name ih =>
      rw [List.inits_append]
      simpa using IsClimb.up (parent?_rooted_concat all) (ih (AreNames.concat.mp all).1)

/-- Above a clean path stand its beginnings, down to the root. -/
theorem ancestors_rooted {names : List Text} (all : AreNames names) :
    (rooted names).ancestors = names.inits.reverse.map rooted :=
  (isClimb_ancestors (rooted names)).unique (isClimb_rooted all)

end Path

end ImportResolution
