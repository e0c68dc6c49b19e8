import ImportResolution.Proofs.Path.Names

/-!
# The way between two places

`Path.relativeTo` goes up to the last directory that both ends have in common and down
from there. On lists of names this is `Path.way`, and `Path.followAll_way` says that it
arrives. The last step of a way that leads down is the name of the target
(`Path.exists_way_concat`), so that another name in its place leads to a neighbour.

The file also reads the parent and the file name of a clean absolute path off its names.
-/

namespace ImportResolution

namespace Path

/-! ## Names above and below -/

theorem trimBlanks_concat {pieces : List Text} {last : Text} (notBlank : isBlank last = false) :
    trimBlanks (pieces ++ [last]) = pieces ++ [last] := by
  simp [trimBlanks, notBlank]

theorem trimBlanks_of_areNames {names : List Text} (all : AreNames names) :
    trimBlanks names = names := by
  rcases List.eq_nil_or_concat' names with rfl | ⟨init, last, rfl⟩
  · rfl
  · exact trimBlanks_concat (AreNames.concat.mp all).2.isBlank_eq_false

theorem headAndBody_rooted {names : List Text} (all : AreNames names) :
    headAndBody (rooted names) = (['/'], if names.isEmpty then [[]] else names) := by
  have rootedPieces := pieces_rooted all
  simp only [rooted, pieces, Text.split, if_true, List.cons.injEq, true_and] at rootedPieces
  simp [rooted, headAndBody, pieces, rootedPieces]

theorem components_rooted {names : List Text} (all : AreNames names) :
    (rooted names).components = ['/'] :: names := by
  have kept : names.filter (fun piece => !isBlank piece) = names := by
    rw [List.filter_eq_self]
    intro name name_mem
    simp [(all name name_mem).isBlank_eq_false]
  rw [components, headAndBody_rooted all]
  cases names with
  | nil => rfl
  | cons name others => simp [kept]

theorem parent?_rooted_concat {names : List Text} {name : Text} (all : AreNames (names ++ [name])) :
    (rooted (names ++ [name])).parent? = some (rooted names) := by
  have nonempty : (names ++ [name]).isEmpty = false := by simp
  rw [parent?, headAndBody_rooted all, nonempty]
  simp only [Bool.false_eq_true, if_false, trimBlanks_of_areNames all]
  split
  · rename_i none
    simp at none
  · rename_i first others taken
    rw [← taken, List.dropLast_concat, trimBlanks_of_areNames (AreNames.concat.mp all).1]
    rfl

theorem parent?_rooted_nil : (rooted []).parent? = none := by decide

theorem parentOrSelf_rooted {names : List Text} (all : AreNames names) :
    (rooted names).parentOrSelf = rooted names.dropLast := by
  rcases List.eq_nil_or_concat' names with rfl | ⟨init, last, rfl⟩
  · simp [parentOrSelf, parent?_rooted_nil]
  · simp [parentOrSelf, parent?_rooted_concat all]

theorem fileName?_rooted_concat {names : List Text} {name : Text}
    (all : AreNames (names ++ [name])) : (rooted (names ++ [name])).fileName? = some name := by
  have nonempty : (names ++ [name]).isEmpty = false := by simp
  have isName := (AreNames.concat.mp all).2
  simp [fileName?, headAndBody_rooted all, nonempty, trimBlanks_of_areNames all, isName.ne_parent]

namespace IsNormal

theorem parentOrSelf {file : Path} (normal : file.IsNormal) : file.parentOrSelf.IsNormal := by
  rcases iff_rooted.mp normal with ⟨names, all, rfl⟩
  rw [parentOrSelf_rooted all]
  exact isNormal_rooted all.dropLast

theorem of_parent? {path above : Path} (normal : path.IsNormal)
    (parent : path.parent? = some above) : above.IsNormal := by
  rcases iff_rooted.mp normal with ⟨names, all, rfl⟩
  rcases List.eq_nil_or_concat' names with rfl | ⟨init, last, rfl⟩
  · rw [parent?_rooted_nil] at parent
    contradiction
  · rw [parent?_rooted_concat all, Option.some.injEq] at parent
    rw [← parent]
    exact isNormal_rooted (AreNames.concat.mp all).1

end IsNormal

/-! ## The way from one list of names to another -/

/-- Up to the last place in common, then down. -/
def way (start target : List Text) : List Text :=
  (dropCommon start target).1.map (fun _ => ['.', '.']) ++ (dropCommon start target).2

theorem exists_common (start target : List Text) :
    ∃ common, start = common ++ (dropCommon start target).1 ∧
      target = common ++ (dropCommon start target).2 := by
  induction start generalizing target with
  | nil => exact ⟨[], by simp [dropCommon]⟩
  | cons first starts ih =>
      cases target with
      | nil => exact ⟨[], by simp [dropCommon]⟩
      | cons goal targets =>
          by_cases same : first = goal
          · subst same
            rcases ih targets with ⟨common, startEq, targetEq⟩
            refine ⟨first :: common, ?_, ?_⟩
            · simpa [dropCommon] using startEq
            · simpa [dropCommon] using targetEq
          · exact ⟨[], by simp [dropCommon, same]⟩

/-- Nothing is left to go down exactly when the target lies on the way up. -/
theorem dropCommon_snd_eq_nil {start target : List Text} :
    (dropCommon start target).2 = [] ↔ target <+: start := by
  induction start generalizing target with
  | nil => cases target <;> simp [dropCommon]
  | cons first starts ih =>
      cases target with
      | nil => simp [dropCommon]
      | cons goal targets =>
          by_cases same : first = goal
          · simp [dropCommon, same, ih]
          · simp [dropCommon, same, Ne.symm same]

theorem followAll_parents (start : List Text) (count : Nat) :
    followAll start (List.replicate count ['.', '.']) = start.take (start.length - count) := by
  induction count generalizing start with
  | zero => simp [followAll]
  | succ count ih =>
      have above : follow start ['.', '.'] = start.dropLast := by simp [follow, isBlank]
      rw [List.replicate_succ, followAll_cons, above, ih, List.dropLast_eq_take, List.take_take,
        List.length_take]
      congr 1
      omega

/-- The way from one place to another arrives there. -/
theorem followAll_way {start target : List Text} (targetNames : AreNames target) :
    followAll start (way start target) = target := by
  rcases exists_common start target with ⟨common, startEq, targetEq⟩
  have down : AreNames (dropCommon start target).2 := by
    rw [targetEq] at targetNames
    exact (AreNames.append.mp targetNames).2
  have up : followAll start ((dropCommon start target).1.map fun _ => ['.', '.']) = common := by
    have lengths := congrArg List.length startEq
    have taken : (common ++ (dropCommon start target).1).take common.length = common :=
      List.take_left
    rw [List.length_append] at lengths
    rw [← startEq] at taken
    rw [List.map_const', followAll_parents, lengths, Nat.add_sub_cancel, taken]
  rw [way, followAll_append, up, followAll_of_areNames down, ← targetEq]

theorem mem_way {start target : List Text} (targetNames : AreNames target) {step : Text}
    (step_mem : step ∈ way start target) : step = ['.', '.'] ∨ (step ∈ target ∧ IsName step) := by
  rcases exists_common start target with ⟨common, -, targetEq⟩
  rcases List.mem_append.mp step_mem with goesUp | goesDown
  · rcases List.mem_map.mp goesUp with ⟨_, -, same⟩
    exact Or.inl same.symm
  · have inTarget : step ∈ target := by
      rw [targetEq]
      exact List.mem_append_right common goesDown
    exact Or.inr ⟨inTarget, targetNames step inTarget⟩

/--
Unless the target lies on the way up, the last step is its name, and the steps before
lead to the directory that holds it.
-/
theorem exists_way_concat {start directory : List Text} {name : Text}
    (targetNames : AreNames (directory ++ [name])) (below : ¬directory ++ [name] <+: start) :
    ∃ before, way start (directory ++ [name]) = before ++ [name] ∧
      followAll start before = directory := by
  rcases exists_common start (directory ++ [name]) with ⟨common, -, targetEq⟩
  have isName := (AreNames.concat.mp targetNames).2
  have arrives : followAll start (way start (directory ++ [name])) = directory ++ [name] :=
    followAll_way targetNames
  rcases List.eq_nil_or_concat' (dropCommon start (directory ++ [name])).2 with
    none | ⟨init, last, down⟩
  · exact absurd (dropCommon_snd_eq_nil.mp none) below
  · rw [down, ← List.append_assoc] at targetEq
    have lastEq : last = name := (List.singleton_inj.mp (List.append_inj_right' targetEq rfl)).symm
    subst lastEq
    refine ⟨(dropCommon start (directory ++ [last])).1.map (fun _ => ['.', '.']) ++ init, ?_, ?_⟩
    · rw [way, down, List.append_assoc]
    · rw [way, down, ← List.append_assoc, followAll_append, followAll_singleton,
        follow_of_isName isName] at arrives
      exact List.append_inj_left' arrives rfl

/-- To a place on the way up there is nothing but `..`. -/
theorem exists_way_eq_replicate {start target : List Text} (above : target <+: start) :
    ∃ count, way start target = List.replicate count ['.', '.'] := by
  refine ⟨(dropCommon start target).1.length, ?_⟩
  rw [way, dropCommon_snd_eq_nil.mpr above, List.append_nil, List.map_const']

/-! ## The way as a path -/

/-- A piece that can be written between slashes. -/
def IsStep (piece : Text) : Prop := piece ≠ [] ∧ '/' ∉ piece

theorem isStep_of_mem_way {start target : List Text} (targetNames : AreNames target) {step : Text}
    (step_mem : step ∈ way start target) : IsStep step := by
  rcases mem_way targetNames step_mem with rfl | ⟨-, isName⟩
  · simp [IsStep]
  · exact ⟨isName.ne_nil, isName.no_slash⟩

theorem join_joinWith {steps : List Text} {step : Text} (all : ∀ step ∈ steps, IsStep step)
    (isStep : IsStep step) :
    join (Text.joinWith '/' steps) step = Text.joinWith '/' (steps ++ [step]) := by
  have relative : isAbsolute step = false := isAbsolute_eq_false isStep.2
  rcases List.eq_nil_or_concat' steps with rfl | ⟨init, last, rfl⟩
  · simp [join, relative, Text.joinWith]
  · have lastStep : IsStep last := all last (by simp)
    have ending : (Text.joinWith '/' (init ++ [last])).getLast? = last.getLast? :=
      Text.getLast?_joinWith_concat init lastStep.1
    have noSlash : (Text.joinWith '/' (init ++ [last])).getLast? ≠ some '/' := by
      rw [ending]
      intro slash
      exact lastStep.2 (List.mem_of_getLast? slash)
    have nonempty : (Text.joinWith '/' (init ++ [last])).isEmpty = false := by
      have some := List.getLast?_isSome.mpr lastStep.1
      rw [← ending] at some
      simpa using some
    rw [Text.joinWith_concat (by simp) step, join, relative, nonempty]
    simp only [Bool.false_eq_true, Bool.false_or, if_false, beq_iff_eq, noSlash]

theorem ofComponents_eq_joinWith {steps : List Text} (all : ∀ step ∈ steps, IsStep step) :
    ofComponents steps = Text.joinWith '/' steps := by
  have general : ∀ (rest before : List Text), (∀ step ∈ before ++ rest, IsStep step) →
      rest.foldl join (Text.joinWith '/' before) = Text.joinWith '/' (before ++ rest) := by
    intro rest
    induction rest with
    | nil => simp
    | cons step rest ih =>
        intro before segments
        have joined : join (Text.joinWith '/' before) step = Text.joinWith '/' (before ++ [step]) :=
          join_joinWith (fun other mem => segments other (by simp [mem]))
            (segments step (by simp))
        rw [List.foldl_cons, joined, ih (before ++ [step]) (by simpa using segments)]
        simp
  exact general steps [] (by simpa using all)

/-- The relative path between absolute paths spells the way between their names. -/
theorem relativeTo_eq_joinWith {start target : Path} (startAbsolute : start.isAbsolute)
    (targetAbsolute : target.isAbsolute) :
    start.relativeTo target = Text.joinWith '/' (way start.names target.names) := by
  have startNames := areNames_names start
  have targetNames := areNames_names target
  rw [relativeTo, clean_of_isAbsolute startAbsolute, clean_of_isAbsolute targetAbsolute,
    components_rooted startNames, components_rooted targetNames]
  have dropped : dropCommon (['/'] :: start.names) (['/'] :: target.names) =
      dropCommon start.names target.names := by simp [dropCommon]
  rw [dropped]
  exact ofComponents_eq_joinWith fun step step_mem => isStep_of_mem_way targetNames step_mem

end Path

end ImportResolution
