import ImportResolution.Proofs.Path.Relative

/-!
# The last piece of a path

The text of a path is pieces between slashes, and its components are read off these pieces.
Where the last piece names a step, the file name and the last component are this piece. A
path that was cleaned ends in such a piece, unless it is the root or the directory itself
(`Path.clean_cases`), and a name at the end of a path is still there when it was cleaned
(`Path.exists_pieces_clean`).
-/

namespace ImportResolution

namespace Path

variable {path : Path} {before : List Text} {last : Text}

/-! ## The body of a path -/

theorem pieces_slash (body : Text) : pieces ('/' :: body) = [] :: pieces body := by
  simp [pieces, Text.split]

theorem no_slash_of_mem_body {piece : Text} (piece_mem : piece ∈ (headAndBody path).2) :
    '/' ∉ piece := by
  have headed := headAndBody.eq_def path
  split at headed
  · rw [headed] at piece_mem
    exact Text.not_mem_of_mem_split piece_mem
  · rw [headed] at piece_mem
    contradiction
  · rename_i body
    rw [headed, ← pieces_slash] at piece_mem
    exact Text.not_mem_of_mem_split piece_mem
  · rw [headed] at piece_mem
    exact Text.not_mem_of_mem_split piece_mem

/-- The head of a path takes nothing from a last piece that names a step. -/
theorem exists_body_concat (split : path.pieces = before ++ [last])
    (notBlank : isBlank last = false) : ∃ steps, (headAndBody path).2 = steps ++ [last] := by
  have below : ∀ (first : Text) (body : Path), path.pieces = first :: pieces body →
      ∃ steps, pieces body = steps ++ [last] := by
    intro first body headed
    rcases List.eq_nil_or_concat' (pieces body) with none | ⟨steps, other, ends⟩
    · exact absurd none (Text.split_ne_nil '/' body)
    · rw [headed, ends, ← List.cons_append] at split
      exact ⟨steps, by rw [ends, List.append_inj_right' split rfl]⟩
  have headed := headAndBody.eq_def path
  split at headed
  · rename_i body
    rw [headed]
    exact below [] body (pieces_slash body)
  · have alone : [] ++ [['.']] = before ++ [last] := split
    rw [← List.singleton_inj.mp (List.append_inj_right' alone rfl)] at notBlank
    contradiction
  · rename_i body
    rcases below ['.'] body (Text.split_append_separator ['.'] body) with ⟨steps, ends⟩
    rw [headed, ends]
    exact ⟨[] :: steps, rfl⟩
  · rw [headed]
    exact ⟨before, split⟩

theorem fileName?_of_pieces (split : path.pieces = before ++ [last])
    (notBlank : isBlank last = false) :
    path.fileName? = if last = ['.', '.'] then none else some last := by
  rcases exists_body_concat split notBlank with ⟨steps, ends⟩
  simp [fileName?, ends, trimBlanks_concat notBlank]

theorem exists_components_concat (split : path.pieces = before ++ [last])
    (notBlank : isBlank last = false) : ∃ others, path.components = others ++ [last] := by
  rcases exists_body_concat split notBlank with ⟨steps, ends⟩
  simp [components, ends, notBlank, ← List.append_assoc]

theorem mem_components {component : Text} (component_mem : component ∈ path.components) :
    component = ['/'] ∨ component = ['.'] ∨ isBlank component = false ∧ '/' ∉ component := by
  unfold components at component_mem
  rcases List.mem_append.mp component_mem with isHead | inBody
  · have headed := headAndBody.eq_def path
    split at headed <;> simp_all
  · rcases List.mem_filter.mp inBody with ⟨body_mem, notBlank⟩
    exact Or.inr (Or.inr ⟨by simpa using notBlank, no_slash_of_mem_body body_mem⟩)

/-! ## The last piece of a clean path -/

theorem mem_cleanStep {kept : List Text} {component other : Text}
    (other_mem : other ∈ cleanStep kept component) :
    other ∈ kept ∨ other = component ∧ component ≠ ['.'] := by
  unfold cleanStep at other_mem
  grind

theorem mem_foldl_cleanStep {components kept : List Text} {component : Text}
    (component_mem : component ∈ components.foldl cleanStep kept) :
    component ∈ kept ∨ component ∈ components ∧ component ≠ ['.'] := by
  induction components generalizing kept with
  | nil => exact Or.inl component_mem
  | cons first others ih =>
      rcases ih component_mem with inStep | ⟨inOthers, notSelf⟩
      · rcases mem_cleanStep inStep with inKept | ⟨rfl, notSelf⟩
        · exact Or.inl inKept
        · exact Or.inr ⟨by simp, notSelf⟩
      · exact Or.inr ⟨by simp [inOthers], notSelf⟩

theorem mem_cleanComponents {components : List Text} {component : Text}
    (component_mem : component ∈ cleanComponents components) :
    component ∈ components ∧ component ≠ ['.'] := by
  rw [cleanComponents, List.mem_reverse] at component_mem
  simpa using mem_foldl_cleanStep component_mem

theorem clean_of_cleanComponents {kept : List Text}
    (cleaned : cleanComponents path.components = kept ++ [last]) :
    path.clean = (ofComponents kept).join last := by
  unfold clean
  split
  · rename_i none
    simp [none] at cleaned
  · rw [cleaned, ofComponents, List.foldl_append]
    rfl

theorem pieces_join_step (base : Path) (noSlash : '/' ∉ last) :
    (base.join last).pieces = base.directoryPieces ++ [last] := by
  have alone : pieces last = [last] := Text.split_of_not_mem noSlash
  rw [pieces_join base (isAbsolute_eq_false noSlash), alone]

/-- A clean path is the root, the directory itself, or ends in a step. -/
theorem clean_cases (path : Path) :
    path.clean = ['/'] ∨ path.clean = ['.'] ∨
      ∃ before last, path.clean.pieces = before ++ [last] ∧ isBlank last = false := by
  rcases List.eq_nil_or_concat' (cleanComponents path.components) with none | ⟨kept, last, cleaned⟩
  · refine Or.inr (Or.inl ?_)
    rw [clean, none]
  · have ends := clean_of_cleanComponents cleaned
    have last_mem : last ∈ cleanComponents path.components := by simp [cleaned]
    rcases mem_cleanComponents last_mem with ⟨component_mem, notSelf⟩
    rcases mem_components component_mem with rfl | self | ⟨notBlank, noSlash⟩
    · exact Or.inl ends
    · exact absurd self notSelf
    · refine Or.inr (Or.inr ⟨(ofComponents kept).directoryPieces, last, ?_, notBlank⟩)
      rw [ends, pieces_join_step _ noSlash]

/-- Cleaning keeps a name at the end of a path. -/
theorem exists_pieces_clean (split : path.pieces = before ++ [last]) (isName : IsName last) :
    ∃ steps, path.clean.pieces = steps ++ [last] := by
  have notBlank := isName.isBlank_eq_false
  rcases exists_components_concat split notBlank with ⟨others, written⟩
  have cleaned : cleanComponents path.components = cleanComponents others ++ [last] := by
    rw [written, cleanComponents, List.foldl_append]
    simp [cleanStep, isName.ne_self, isName.ne_parent, cleanComponents]
  rw [clean_of_cleanComponents cleaned, pieces_join_step _ isName.no_slash]
  exact ⟨_, rfl⟩

end Path

end ImportResolution
