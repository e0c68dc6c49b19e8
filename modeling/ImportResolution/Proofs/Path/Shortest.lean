import ImportResolution.Proofs.Path.Relative

/-!
# The shortest way between two places

A step of a relative path leads to an entry of a directory or to the directory above, so
it changes the length of the way that is left by one (`Path.length_way_concat`). A path
that arrives therefore has at least as many components as `Path.way` has steps.

Main statement: `Path.relativeTo_isShortestWay`, for absolute paths that need not be
clean. `Path.relativeTo` arrives, it goes up before it goes down, and no relative path
with fewer components arrives.
-/

namespace ImportResolution

namespace Path

/-! ## What one step does to the way that is left -/

theorem length_way (start target : List Text) :
    (way start target).length =
      (dropCommon start target).1.length + (dropCommon start target).2.length := by
  simp [way]

/-- One name more at the start makes the way longer by a step or shorter by a step. -/
theorem length_way_concat (start target : List Text) (name : Text) :
    (way (start ++ [name]) target).length = (way start target).length + 1 ∨
      (way (start ++ [name]) target).length + 1 = (way start target).length := by
  simp only [length_way]
  induction start generalizing target with
  | nil =>
      cases target with
      | nil => simp [dropCommon]
      | cons goal targets =>
          by_cases same : name = goal
          · right
            cases targets <;> simp [dropCommon, same]
          · left
            simp [dropCommon, same]
            omega
  | cons first starts ih =>
      cases target with
      | nil => simp [dropCommon]
      | cons goal targets =>
          by_cases same : first = goal
          · simpa [dropCommon, same] using ih targets
          · left
            simp [dropCommon, same]
            omega

/-- A step brings no place nearer than by one. -/
theorem length_way_le_follow (start target : List Text) (piece : Text) :
    (way start target).length ≤ (way (follow start piece) target).length + 1 := by
  unfold follow
  split
  · omega
  · split
    · rcases List.eq_nil_or_concat' start with rfl | ⟨above, last, rfl⟩
      · simp
      · rw [List.dropLast_concat]
        have oneStep := length_way_concat above target last
        omega
    · have oneStep := length_way_concat start target piece
      omega

theorem way_eq_nil_iff {start target : List Text} : way start target = [] ↔ start = target := by
  rcases exists_common start target with ⟨common, startEq, targetEq⟩
  constructor
  · intro none
    rw [way, List.append_eq_nil_iff, List.map_eq_nil_iff] at none
    rw [none.1, List.append_nil] at startEq
    rw [none.2, List.append_nil] at targetEq
    rw [startEq, targetEq]
  · rintro rfl
    have nothingDown := dropCommon_snd_eq_nil.mpr (List.prefix_refl start)
    have nothingUp : (dropCommon start start).1 = [] := by
      rw [nothingDown, List.append_nil] at targetEq
      rw [← targetEq] at startEq
      exact List.self_eq_append_right.mp startEq
    rw [way, nothingDown, nothingUp]
    rfl

/-- Pieces that lead to a place take at least as many steps as the way to it. -/
theorem length_way_le_of_followAll {start target pieces : List Text}
    (arrives : followAll start pieces = target) :
    (way start target).length ≤ (pieces.filter fun piece => !isBlank piece).length := by
  induction pieces generalizing start with
  | nil =>
      have none : way start target = [] := way_eq_nil_iff.mpr arrives
      simp [none]
  | cons piece pieces ih =>
      have rest := ih arrives
      by_cases blank : isBlank piece
      · rw [follow_of_isBlank blank] at rest
        simpa [blank] using rest
      · have oneStep := length_way_le_follow start target piece
        simp only [blank, Bool.not_false, List.filter_cons_of_pos, List.length_cons]
        omega

/-! ## Components of a relative path -/

/-- A relative path has a component for each step, and one more for a leading `.`. -/
theorem components_of_not_isAbsolute {path : Path} (relative : path.isAbsolute = false) :
    path.components =
      (if path.pieces.head? = some ['.'] then [['.']] else []) ++
        path.pieces.filter fun piece => !isBlank piece := by
  have headed := headAndBody.eq_def path
  split at headed
  · simp [isAbsolute] at relative
  · decide
  · rename_i body
    have split : pieces ('.' :: '/' :: body) = ['.'] :: pieces body := by
      simp [pieces, Text.split]
    simp [components, headed, split, isBlank]
  · rename_i notRoot notSelf notBelowSelf
    have first : path.pieces.head? ≠ some ['.'] := by
      intro self
      rcases List.head?_eq_some_iff.mp self with ⟨others, split⟩
      have joined := joinWith_of_pieces split
      cases others with
      | nil => exact notSelf joined.symm
      | cons next others => exact notBelowSelf _ joined.symm
    simp [components, headed, first]

theorem length_steps_le_components {path : Path} (relative : path.isAbsolute = false) :
    (path.pieces.filter fun piece => !isBlank piece).length ≤ path.components.length := by
  rw [components_of_not_isAbsolute relative, List.length_append]
  omega

theorem isAbsolute_joinWith {steps : List Text} (all : ∀ step ∈ steps, IsStep step) :
    isAbsolute (Text.joinWith '/' steps) = false := by
  cases steps with
  | nil => rfl
  | cons first others =>
      have isStep : IsStep first := all first (by simp)
      have relative : isAbsolute first = false := isAbsolute_eq_false isStep.2
      cases others with
      | nil => exact relative
      | cons next others =>
          rw [Text.joinWith, isAbsolute_append_of_ne_nil isStep.1, relative]

/-- Steps written one after the other are the components of what is written. -/
theorem components_joinWith {steps : List Text} (all : ∀ step ∈ steps, IsStep step)
    (noSelf : ['.'] ∉ steps) : components (Text.joinWith '/' steps) = steps := by
  rw [components_of_not_isAbsolute (isAbsolute_joinWith all)]
  by_cases none : steps = []
  · subst none
    rfl
  · have split : pieces (Text.joinWith '/' steps) = steps :=
      Text.split_joinWith none fun step step_mem => (all step step_mem).2
    have kept : steps.filter (fun piece => !isBlank piece) = steps := by
      rw [List.filter_eq_self]
      intro step step_mem
      have notSelf : step ≠ ['.'] := fun self => noSelf (self ▸ step_mem)
      simp [isBlank, (all step step_mem).1, notSelf]
    have first : steps.head? ≠ some ['.'] := fun self => noSelf (List.mem_of_head? self)
    rw [split, kept, if_neg first, List.nil_append]

theorem joinWith_eq_nil_iff {steps : List Text} (all : ∀ step ∈ steps, IsStep step) :
    Text.joinWith '/' steps = [] ↔ steps = [] := by
  constructor
  · intro empty
    by_contra some
    have split : pieces (Text.joinWith '/' steps) = steps :=
      Text.split_joinWith some fun step step_mem => (all step step_mem).2
    have blank : [] ∈ steps := by
      rw [← split, empty]
      exact List.mem_singleton.mpr rfl
    exact (all [] blank).1 rfl
  · rintro rfl
    rfl

/-! ## The relative path between two places -/

/-- What is asked of a relative path from the directory `start` to `target`. -/
structure IsShortestWay (start target way : Path) : Prop where
  relative : way.isAbsolute = false
  arrives : start.absoluteFrom way = target.clean
  up_then_down : ∃ up down, AreNames down ∧
    way.components = List.replicate up ['.', '.'] ++ down
  eq_nil_iff : way = [] ↔ start.clean = target.clean
  shortest : ∀ other : Path, other.isAbsolute = false →
    start.absoluteFrom other = target.clean → way.components.length ≤ other.components.length

theorem rooted_injective {first second : List Text} (firstNames : AreNames first)
    (secondNames : AreNames second) : rooted first = rooted second ↔ first = second := by
  constructor
  · intro same
    rw [← names_rooted firstNames, same, names_rooted secondNames]
  · exact congrArg rooted

theorem clean_eq_clean_iff {start target : Path} (startAbsolute : start.isAbsolute)
    (targetAbsolute : target.isAbsolute) :
    start.clean = target.clean ↔ start.names = target.names := by
  rw [clean_of_isAbsolute startAbsolute, clean_of_isAbsolute targetAbsolute,
    rooted_injective (areNames_names start) (areNames_names target)]

/-- A relative path arrives when its pieces lead from the names of the start to the target's. -/
theorem absoluteFrom_eq_clean_iff {start target other : Path} (startAbsolute : start.isAbsolute)
    (targetAbsolute : target.isAbsolute) (relative : other.isAbsolute = false) :
    start.absoluteFrom other = target.clean ↔
      followAll start.names other.pieces = target.names := by
  rw [absoluteFrom_of_not_isAbsolute startAbsolute relative, clean_of_isAbsolute targetAbsolute,
    rooted_injective (areNames_followAll_pieces (areNames_names start) other)
      (areNames_names target)]

theorem self_not_mem_way {start target : List Text} (targetNames : AreNames target) :
    ['.'] ∉ way start target := by
  intro self
  rcases mem_way targetNames self with parent | ⟨-, isName⟩
  · simp at parent
  · exact isName.ne_self rfl

theorem exists_way_eq_append {start target : List Text} (targetNames : AreNames target) :
    ∃ up down, AreNames down ∧ way start target = List.replicate up ['.', '.'] ++ down := by
  rcases exists_common start target with ⟨common, -, targetEq⟩
  refine ⟨(dropCommon start target).1.length, (dropCommon start target).2, ?_, ?_⟩
  · rw [targetEq] at targetNames
    exact (AreNames.append.mp targetNames).2
  · rw [way, List.map_const']

/--
Between absolute paths, `relativeTo` leads from one to the other, up and then down, and
takes no more steps than any relative path that does.
-/
theorem relativeTo_isShortestWay {start target : Path} (startAbsolute : start.isAbsolute)
    (targetAbsolute : target.isAbsolute) :
    IsShortestWay start target (start.relativeTo target) := by
  have targetNames := areNames_names target
  have isStep : ∀ step ∈ way start.names target.names, IsStep step :=
    fun _ step_mem => isStep_of_mem_way targetNames step_mem
  have spelled := relativeTo_eq_joinWith startAbsolute targetAbsolute
  have components : (start.relativeTo target).components = way start.names target.names := by
    rw [spelled]
    exact components_joinWith isStep (self_not_mem_way targetNames)
  have relative : (start.relativeTo target).isAbsolute = false := by
    rw [spelled]
    exact isAbsolute_joinWith isStep
  refine ⟨relative, ?_, ?_, ?_, ?_⟩
  · rw [absoluteFrom_eq_clean_iff startAbsolute targetAbsolute relative, spelled,
      followAll_pieces_joinWith fun step step_mem => (isStep step step_mem).2]
    exact followAll_way targetNames
  · rw [components]
    exact exists_way_eq_append targetNames
  · rw [spelled, joinWith_eq_nil_iff isStep, way_eq_nil_iff,
      clean_eq_clean_iff startAbsolute targetAbsolute]
  · intro other otherRelative arrives
    rw [absoluteFrom_eq_clean_iff startAbsolute targetAbsolute otherRelative] at arrives
    rw [components]
    exact Nat.le_trans (length_way_le_of_followAll arrives)
      (length_steps_le_components otherRelative)

theorem relativeTo_isShortestWay_to_sibling :
    isAbsolute "/srv/./app/../web".toList ∧ isAbsolute "/srv//lib".toList ∧
      IsShortestWay "/srv/./app/../web".toList "/srv//lib".toList "../lib".toList := by
  have shortest : IsShortestWay "/srv/./app/../web".toList "/srv//lib".toList
      (relativeTo "/srv/./app/../web".toList "/srv//lib".toList) :=
    relativeTo_isShortestWay rfl rfl
  exact ⟨rfl, rfl, shortest⟩

end Path

end ImportResolution
