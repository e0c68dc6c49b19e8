import ImportResolution.FileTree.Basic
import ImportResolution.Path.Relative
import ImportResolution.Proofs.Text.Split
import Mathlib.Data.List.Basic

/-!
# Absolute paths as lists of names

An absolute path leads lexically to the place that a list of names describes, and the
clean path to that place is the names after a slash each. `Path.names` reads an
absolute path in this way, piece by piece from the root, and `Path.rooted` writes the
names down again.

`Path.clean_of_isAbsolute` says that cleaning is reading followed by writing, and
`Path.absoluteFrom_of_not_isAbsolute` that a relative path goes on from the names of its base.
Whatever is shown of clean paths rests on these two and not on how cleaning proceeds.
-/

namespace ImportResolution

namespace Path

/-- A piece that leads from a directory to an entry of it. -/
structure IsName (piece : Text) : Prop where
  ne_nil : piece ≠ []
  ne_self : piece ≠ ['.']
  ne_parent : piece ≠ ['.', '.']
  no_slash : '/' ∉ piece

namespace IsName

theorem iff_conditions (piece : Text) :
    piece ≠ [] ∧ piece ≠ ['.'] ∧ piece ≠ ['.', '.'] ∧ '/' ∉ piece ↔ IsName piece := by
  constructor
  · rintro ⟨ne_nil, ne_self, ne_parent, no_slash⟩
    exact ⟨ne_nil, ne_self, ne_parent, no_slash⟩
  · rintro ⟨ne_nil, ne_self, ne_parent, no_slash⟩
    exact ⟨ne_nil, ne_self, ne_parent, no_slash⟩

instance : DecidablePred IsName := fun piece => decidable_of_iff _ (iff_conditions piece)

theorem isBlank_eq_false {piece : Text} (name : IsName piece) : isBlank piece = false := by
  simp [isBlank, name.ne_nil, name.ne_self]

/-- A name with more behind it stays a name unless that brings in a slash. -/
theorem append {piece ending : Text} (name : IsName piece) (noSlash : '/' ∉ ending) :
    IsName (piece ++ ending) := by
  rcases name with ⟨ne_nil, ne_self, ne_parent, no_slash⟩
  cases piece with
  | nil => exact absurd rfl ne_nil
  | cons first rest =>
      refine ⟨by simp, ?_, ?_, by simp_all⟩
      · intro same
        simp_all
      · intro same
        rcases rest with _ | ⟨second, rest⟩ <;> simp_all

end IsName

/-- A list of names: the location that a clean absolute path describes. -/
def AreNames (names : List Text) : Prop := ∀ name ∈ names, IsName name

namespace AreNames

instance : DecidablePred AreNames :=
  fun names => inferInstanceAs (Decidable (∀ name ∈ names, IsName name))

theorem nil : AreNames [] := by simp [AreNames]

theorem cons {name : Text} {names : List Text} :
    AreNames (name :: names) ↔ IsName name ∧ AreNames names := by
  simp [AreNames]

theorem append {first second : List Text} :
    AreNames (first ++ second) ↔ AreNames first ∧ AreNames second := by
  simp only [AreNames, List.mem_append]
  constructor
  · exact fun all => ⟨fun name mem => all name (Or.inl mem), fun name mem => all name (Or.inr mem)⟩
  · rintro ⟨firstNames, secondNames⟩ name (mem | mem)
    · exact firstNames name mem
    · exact secondNames name mem

theorem concat {names : List Text} {name : Text} :
    AreNames (names ++ [name]) ↔ AreNames names ∧ IsName name := by
  rw [append, cons]
  simp [nil]

theorem dropLast {names : List Text} (all : AreNames names) : AreNames names.dropLast :=
  fun name mem => all name (List.dropLast_subset _ mem)

theorem no_slash {names : List Text} (all : AreNames names) : ∀ name ∈ names, '/' ∉ name :=
  fun name mem => (all name mem).no_slash

end AreNames

/-- One piece followed from the place with the given names; nothing lies above the root. -/
def follow (names : List Text) (piece : Text) : List Text :=
  if isBlank piece then names
  else if piece = ['.', '.'] then names.dropLast
  else names ++ [piece]

/-- Pieces followed one after the other. -/
def followAll (names : List Text) (pieces : List Text) : List Text :=
  pieces.foldl follow names

/-- The names to which an absolute path leads from the root. -/
def names (path : Path) : List Text :=
  followAll [] path.pieces

/-- The clean absolute path to the place with the given names. -/
def rooted (names : List Text) : Path :=
  '/' :: Text.joinWith '/' names

theorem isAbsolute_iff {path : Path} : path.isAbsolute = true ↔ ∃ body, path = '/' :: body := by
  constructor
  · intro absolute
    unfold isAbsolute at absolute
    split at absolute
    · exact ⟨_, rfl⟩
    · simp at absolute
  · rintro ⟨body, rfl⟩
    rfl

theorem isAbsolute_eq_false {path : Path} (noSlash : '/' ∉ path) : path.isAbsolute = false := by
  rw [Bool.eq_false_iff]
  intro absolute
  rcases isAbsolute_iff.mp absolute with ⟨body, rfl⟩
  simp at noSlash

/-! ## Following pieces -/

theorem follow_of_isName {piece : Text} (name : IsName piece) (names : List Text) :
    follow names piece = names ++ [piece] := by
  simp [follow, name.isBlank_eq_false, name.ne_parent]

theorem follow_of_isBlank {piece : Text} (blank : isBlank piece) (names : List Text) :
    follow names piece = names := by
  simp [follow, blank]

theorem followAll_append (names first second : List Text) :
    followAll names (first ++ second) = followAll (followAll names first) second :=
  List.foldl_append

theorem followAll_cons (names : List Text) (piece : Text) (pieces : List Text) :
    followAll names (piece :: pieces) = followAll (follow names piece) pieces := rfl

theorem followAll_singleton (names : List Text) (piece : Text) :
    followAll names [piece] = follow names piece := rfl

theorem followAll_of_areNames {pieces : List Text} (all : AreNames pieces) (names : List Text) :
    followAll names pieces = names ++ pieces := by
  induction pieces generalizing names with
  | nil => simp [followAll]
  | cons piece pieces ih =>
      rcases AreNames.cons.mp all with ⟨name, others⟩
      rw [followAll_cons, follow_of_isName name, ih others]
      simp

theorem pieces_joinWith_concat {before : List Text} {last : Text}
    (noSlash : ∀ step ∈ before, '/' ∉ step) (lastNoSlash : '/' ∉ last) :
    pieces (Text.joinWith '/' (before ++ [last])) = before ++ [last] := by
  apply Text.split_joinWith (by simp)
  intro step step_mem
  rcases List.mem_append.mp step_mem with inBefore | isLast
  · exact noSlash step inBefore
  · rw [List.mem_singleton.mp isLast]
    exact lastNoSlash

theorem joinWith_of_pieces {path : Path} {steps : List Text} (split : path.pieces = steps) :
    Text.joinWith '/' steps = path := by
  rw [← split, pieces, Text.joinWith_split]

theorem followAll_pieces_joinWith {steps : List Text} (noSlash : ∀ step ∈ steps, '/' ∉ step)
    (start : List Text) :
    followAll start (pieces (Text.joinWith '/' steps)) = followAll start steps := by
  by_cases none : steps = []
  · subst none
    rfl
  · rw [pieces, Text.split_joinWith none noSlash]

theorem areNames_follow {names : List Text} {piece : Text} (all : AreNames names)
    (noSlash : '/' ∉ piece) : AreNames (follow names piece) := by
  unfold follow
  split
  · exact all
  · split
    · exact all.dropLast
    · rename_i notBlank notParent
      simp only [isBlank, Bool.or_eq_true, List.isEmpty_iff, beq_iff_eq, not_or] at notBlank
      exact AreNames.concat.mpr ⟨all, notBlank.1, notBlank.2, notParent, noSlash⟩

theorem areNames_followAll {names pieces : List Text} (all : AreNames names)
    (noSlash : ∀ piece ∈ pieces, '/' ∉ piece) : AreNames (followAll names pieces) := by
  induction pieces generalizing names with
  | nil => exact all
  | cons piece pieces ih =>
      exact ih (areNames_follow all (noSlash piece (by simp)))
        fun other mem => noSlash other (by simp [mem])

theorem areNames_followAll_pieces {names : List Text} (all : AreNames names) (path : Path) :
    AreNames (followAll names path.pieces) :=
  areNames_followAll all fun _ piece_mem => Text.not_mem_of_mem_split piece_mem

theorem areNames_names (path : Path) : AreNames path.names :=
  areNames_followAll_pieces AreNames.nil path

/-! ## Writing names down -/

@[simp]
theorem isAbsolute_rooted (names : List Text) : (rooted names).isAbsolute = true := rfl

theorem rooted_concat (names : List Text) (name : Text) :
    rooted (names ++ [name]) =
      if names.isEmpty then '/' :: name else rooted names ++ '/' :: name := by
  cases names with
  | nil => rfl
  | cons first others =>
      simp [rooted, ← Text.joinWith_concat (List.cons_ne_nil first others) name]

theorem rooted_concat_append (names : List Text) (name ending : Text) :
    rooted (names ++ [name]) ++ ending = rooted (names ++ [name ++ ending]) := by
  rw [rooted, rooted, List.cons_append, Text.joinWith_concat_append]

/-- The pieces of a clean absolute path: nothing before the first slash, then the names. -/
theorem pieces_rooted {names : List Text} (all : AreNames names) :
    (rooted names).pieces = [] :: if names.isEmpty then [[]] else names := by
  have afterSlash : (rooted names).pieces = [] :: Text.split '/' (Text.joinWith '/' names) := by
    simp [pieces, rooted, Text.split]
  rw [afterSlash]
  cases names with
  | nil => rfl
  | cons name others => rw [Text.split_joinWith (by simp) all.no_slash]; rfl

@[simp]
theorem names_rooted {names : List Text} (all : AreNames names) : (rooted names).names = names := by
  rw [Path.names, pieces_rooted all]
  cases names with
  | nil => rfl
  | cons name others =>
      have read := followAll_of_areNames all []
      simpa [followAll, follow_of_isBlank (by rfl : isBlank [] = true)] using read

theorem getLast?_rooted_concat (names : List Text) {name : Text} (isName : IsName name) :
    (rooted (names ++ [name])).getLast? = name.getLast? := by
  have ends := List.getLast?_isSome.mpr isName.ne_nil
  rw [rooted, List.getLast?_cons, Text.getLast?_joinWith_concat names isName.ne_nil]
  cases last : name.getLast? <;> simp_all

theorem getLast?_rooted_ne_slash {names : List Text} (all : AreNames names)
    (notRoot : names ≠ []) : (rooted names).getLast? ≠ some '/' := by
  rcases List.eq_nil_or_concat' names with none | ⟨init, last, rfl⟩
  · exact absurd none notRoot
  · have lastName := (AreNames.concat.mp all).2
    rw [getLast?_rooted_concat init lastName]
    intro slash
    exact lastName.no_slash (List.mem_of_getLast? slash)

theorem join_rooted {names : List Text} {name : Text} (all : AreNames names)
    (isName : IsName name) : (rooted names).join name = rooted (names ++ [name]) := by
  have relative : isAbsolute name = false := isAbsolute_eq_false isName.no_slash
  by_cases none : names = []
  · simp [none, join, rooted, relative, Text.joinWith]
  · have noSlashLast := getLast?_rooted_ne_slash all none
    have nonempty : (rooted names).isEmpty = false := rfl
    rw [join, relative, nonempty, rooted_concat names]
    simp [noSlashLast, none]

theorem foldl_join_rooted {names others : List Text} (all : AreNames names)
    (othersNames : AreNames others) :
    others.foldl join (rooted names) = rooted (names ++ others) := by
  induction others generalizing names with
  | nil => simp
  | cons name others ih =>
      rcases AreNames.cons.mp othersNames with ⟨isName, rest⟩
      rw [List.foldl_cons, join_rooted all isName, ih (AreNames.concat.mpr ⟨all, isName⟩) rest]
      simp

/-! ## Cleaning -/

/-- Cleaning keeps the names read so far, last first, above the root. -/
theorem foldl_cleanStep {names pieces : List Text} (all : AreNames names)
    (noSlash : ∀ piece ∈ pieces, '/' ∉ piece) :
    (pieces.filter fun piece => !isBlank piece).foldl cleanStep (names.reverse ++ [['/']]) =
      (followAll names pieces).reverse ++ [['/']] := by
  induction pieces generalizing names with
  | nil => rfl
  | cons piece pieces ih =>
      have rest := ih (areNames_follow all (noSlash piece (by simp)))
        fun other mem => noSlash other (by simp [mem])
      rw [followAll_cons, ← rest]
      by_cases blank : isBlank piece
      · simp [blank, follow]
      · have notSelf : piece ≠ ['.'] := by
          intro same
          simp [same, isBlank] at blank
        -- The root stands below all names, and `..` never takes it away.
        by_cases parent : piece = ['.', '.']
        · subst parent
          rcases List.eq_nil_or_concat' names with rfl | ⟨init, last, rfl⟩
          · simp [isBlank, follow, cleanStep]
          · have lastName := (AreNames.concat.mp all).2
            have notRoot : last ≠ ['/'] := fun same => lastName.no_slash (by simp [same])
            simp [isBlank, follow, cleanStep, notRoot, lastName.ne_parent]
        · simp [blank, follow, cleanStep, notSelf, parent]

/-- Cleaning an absolute path reads its names and writes them down. -/
theorem clean_of_isAbsolute {path : Path} (absolute : path.isAbsolute) :
    path.clean = rooted path.names := by
  rcases isAbsolute_iff.mp absolute with ⟨body, rfl⟩
  have headed : headAndBody ('/' :: body) = (['/'], Text.split '/' body) := rfl
  have namesEq : names ('/' :: body) = followAll [] (Text.split '/' body) := by
    simp [names, pieces, Text.split, followAll, follow, isBlank]
  have kept : cleanComponents (components ('/' :: body)) = ['/'] :: names ('/' :: body) := by
    have rootStep : cleanStep [] ['/'] = [['/']] := by decide
    have cleaned := foldl_cleanStep AreNames.nil
      fun piece (piece_mem : piece ∈ Text.split '/' body) => Text.not_mem_of_mem_split piece_mem
    rw [← namesEq, List.reverse_nil, List.nil_append] at cleaned
    simp [components, headed, cleanComponents, rootStep, cleaned]
  have fromRoot := foldl_join_rooted AreNames.nil (areNames_names ('/' :: body))
  rw [clean, kept]
  simpa [ofComponents, join, rooted, Text.joinWith] using fromRoot

/-- An absolute path from which cleaning takes nothing. -/
structure IsNormal (path : Path) : Prop where
  absolute : path.isAbsolute = true
  clean_eq : path.clean = path

namespace IsNormal

theorem iff_rooted {path : Path} :
    path.IsNormal ↔ ∃ names, AreNames names ∧ path = rooted names := by
  constructor
  · rintro ⟨absolute, clean_eq⟩
    exact ⟨path.names, areNames_names path, by rw [← clean_of_isAbsolute absolute, clean_eq]⟩
  · rintro ⟨names, all, rfl⟩
    exact ⟨rfl, by rw [clean_of_isAbsolute rfl, names_rooted all]⟩

theorem eq_rooted {path : Path} (normal : path.IsNormal) : path = rooted path.names := by
  rw [← clean_of_isAbsolute normal.absolute, normal.clean_eq]

end IsNormal

theorem isNormal_rooted {names : List Text} (all : AreNames names) : (rooted names).IsNormal :=
  IsNormal.iff_rooted.mpr ⟨names, all, rfl⟩

/-- A clean path that is neither a place nor above it is an entry of a directory. -/
theorem IsNormal.exists_rooted_concat {path : Path} {place : List Text} (normal : path.IsNormal)
    (below : ¬path.names <+: place) :
    ∃ directory name, path = rooted (directory ++ [name]) ∧ AreNames (directory ++ [name]) ∧
      ¬directory ++ [name] <+: place := by
  rcases iff_rooted.mp normal with ⟨names, all, rfl⟩
  rw [names_rooted all] at below
  rcases List.eq_nil_or_concat' names with rfl | ⟨directory, name, rfl⟩
  · exact absurd List.nil_prefix below
  · exact ⟨directory, name, rfl, all, below⟩

/-- But for the root, a clean path is one that is written in names after the first slash. -/
theorem isNormal_iff_areNames {path : Path} (notRoot : path ≠ ['/']) :
    path.IsNormal ↔ path.isAbsolute = true ∧ AreNames path.pieces.tail := by
  constructor
  · intro normal
    rcases IsNormal.iff_rooted.mp normal with ⟨names, all, rfl⟩
    refine ⟨rfl, ?_⟩
    rw [pieces_rooted all]
    cases names with
    | nil => exact absurd rfl notRoot
    | cons name others => exact all
  · rintro ⟨absolute, all⟩
    rcases isAbsolute_iff.mp absolute with ⟨body, rfl⟩
    have split : pieces ('/' :: body) = [] :: pieces body := by
      simp [pieces, Text.split]
    rw [split, List.tail_cons] at all
    exact IsNormal.iff_rooted.mpr ⟨pieces body, all, by rw [rooted, pieces, Text.joinWith_split]⟩

theorem isNormal_clean {path : Path} (absolute : path.isAbsolute) : path.clean.IsNormal := by
  rw [clean_of_isAbsolute absolute]
  exact isNormal_rooted (areNames_names path)

/-! ## Paths taken from a base -/

theorem absoluteFrom_of_isAbsolute {path : Path} (base : Path) (absolute : path.isAbsolute) :
    base.absoluteFrom path = path.clean := by
  simp [absoluteFrom, join, absolute]

/-- The pieces of a path as a directory: a slash at its end opens no further piece. -/
def directoryPieces (path : Path) : List Text :=
  if path.pieces.getLast? = some [] then path.pieces.dropLast else path.pieces

/-- The last piece is empty when nothing stands after the last slash, or nothing at all. -/
theorem getLast?_pieces_eq_nil_iff {path : Path} :
    path.pieces.getLast? = some [] ↔ path = [] ∨ path.getLast? = some '/' := by
  constructor
  · intro blank
    rcases List.getLast?_eq_some_iff.mp blank with ⟨before, split⟩
    have joined := joinWith_of_pieces split
    by_cases alone : before = []
    · simp_all [Text.joinWith]
    · rw [Text.joinWith_concat alone] at joined
      exact Or.inr (by rw [← joined, List.getLast?_concat])
  · rintro (rfl | ends)
    · rfl
    · rcases List.getLast?_eq_some_iff.mp ends with ⟨init, rfl⟩
      have split : pieces (init ++ ['/']) = pieces init ++ [[]] :=
        Text.split_append_separator init []
      rw [split, List.getLast?_concat]

theorem pieces_eq_directoryPieces_or (path : Path) :
    path.pieces = path.directoryPieces ∨ path.pieces = path.directoryPieces ++ [[]] := by
  unfold directoryPieces
  split
  · rename_i blank
    rcases List.getLast?_eq_some_iff.mp blank with ⟨before, split⟩
    rw [split, List.dropLast_concat]
    exact Or.inr rfl
  · exact Or.inl rfl

/-- Joining puts the pieces of the relative path after those of the base as a directory. -/
theorem pieces_join (base : Path) {path : Path} (relative : path.isAbsolute = false) :
    (base.join path).pieces = base.directoryPieces ++ path.pieces := by
  unfold directoryPieces
  split
  · rename_i blank
    rcases getLast?_pieces_eq_nil_iff.mp blank with rfl | ends
    · simp [join, relative, pieces, Text.split]
    · rcases List.getLast?_eq_some_iff.mp ends with ⟨init, rfl⟩
      have joined : join (init ++ ['/']) path = init ++ '/' :: path := by
        simp [join, relative]
      have split : pieces (init ++ ['/']) = pieces init ++ [[]] :=
        Text.split_append_separator init []
      rw [joined, split, List.dropLast_concat]
      exact Text.split_append_separator init path
  · rename_i notBlank
    rw [getLast?_pieces_eq_nil_iff, not_or] at notBlank
    have joined : base.join path = base ++ '/' :: path := by
      simp [join, relative, notBlank]
    rw [joined]
    exact Text.split_append_separator base path

/-- Joining follows the pieces of the relative path after those of the base. -/
theorem followAll_pieces_join {base path : Path} (relative : path.isAbsolute = false)
    (names : List Text) :
    followAll names (base.join path).pieces =
      followAll (followAll names base.pieces) path.pieces := by
  rw [pieces_join base relative, followAll_append]
  rcases pieces_eq_directoryPieces_or base with same | withBlank
  · rw [← same]
  · rw [withBlank, followAll_append]
    rfl

theorem directoryPieces_rooted {names : List Text} (all : AreNames names) :
    (rooted names).directoryPieces = [] :: names := by
  unfold directoryPieces
  rw [pieces_rooted all]
  rcases List.eq_nil_or_concat' names with rfl | ⟨init, last, rfl⟩
  · rfl
  · have nonempty : last ≠ [] := (AreNames.concat.mp all).2.ne_nil
    have isLast : ([] :: (init ++ [last])).getLast? = some last := by
      rw [← List.cons_append, List.getLast?_concat]
    have notEmpty : (init ++ [last]).isEmpty = false := by simp
    rw [notEmpty, if_neg Bool.false_ne_true, isLast, if_neg]
    exact fun same => nonempty (Option.some.inj same)

/-- What is joined to a clean path goes on with its pieces, whatever they are. -/
theorem join_rooted_eq {names : List Text} {path : Path} (all : AreNames names)
    (relative : path.isAbsolute = false) :
    (rooted names).join path = rooted (names ++ path.pieces) := by
  have joined := pieces_join (rooted names) relative
  have nonempty : names ++ path.pieces ≠ [] := by
    simp [pieces, Text.split_ne_nil]
  rw [directoryPieces_rooted all] at joined
  rw [← joinWith_of_pieces joined, List.cons_append]
  cases steps : names ++ path.pieces with
  | nil => exact absurd steps nonempty
  | cons step others => rfl

theorem join_concat_slash {base : Path} (nonempty : base ≠ []) (noSlash : base.getLast? ≠ some '/')
    (path : Path) : join (base ++ ['/']) path = base.join path := by
  unfold join
  simp [nonempty, noSlash]

theorem directoryPieces_join (base : Path) {path : Path} (relative : path.isAbsolute = false) :
    (base.join path).directoryPieces = base.directoryPieces ++ path.directoryPieces := by
  have nonempty : path.pieces ≠ [] := Text.split_ne_nil '/' path
  rw [directoryPieces, pieces_join base relative, List.getLast?_append_of_ne_nil _ nonempty,
    List.dropLast_append_of_ne_nil nonempty, directoryPieces.eq_def path]
  split
  · rfl
  · rfl

theorem directoryPieces_foldl_join (base : Path) {steps : List Text}
    (all : ∀ step ∈ steps, step ≠ [] ∧ '/' ∉ step) :
    (steps.foldl join base).directoryPieces = base.directoryPieces ++ steps := by
  induction steps generalizing base with
  | nil => simp
  | cons step steps ih =>
      rw [List.forall_mem_cons] at all
      rcases all with ⟨⟨nonempty, noSlash⟩, others⟩
      have alone : pieces step = [step] := Text.split_of_not_mem noSlash
      have isStep : directoryPieces step = [step] := by
        simp [directoryPieces, alone, nonempty]
      rw [List.foldl_cons, ih (base.join step) others,
        directoryPieces_join base (isAbsolute_eq_false noSlash), isStep, List.append_assoc]
      rfl

/-- Steps from the root lead to the path in which they are written down, `.` and `..` included. -/
theorem foldl_join_root {steps : List Text} (all : ∀ step ∈ steps, step ≠ [] ∧ '/' ∉ step) :
    steps.foldl join ['/'] = rooted steps := by
  rcases List.eq_nil_or_concat' steps with rfl | ⟨before, last, rfl⟩
  · rfl
  · rw [List.forall_mem_append] at all
    have noSlash : '/' ∉ last := (all.2 last (by simp)).2
    have alone : pieces last = [last] := Text.split_of_not_mem noSlash
    have written := pieces_join (before.foldl join ['/']) (isAbsolute_eq_false noSlash)
    rw [directoryPieces_foldl_join ['/'] all.1, alone] at written
    rw [List.foldl_append, List.foldl_cons, List.foldl_nil, ← joinWith_of_pieces written]
    cases before <;> rfl

theorem areNames_pieces_join_iff {base path : Path} (normal : base.IsNormal)
    (relative : path.isAbsolute = false) :
    AreNames (base.join path).pieces.tail ↔ AreNames path.pieces := by
  rcases IsNormal.iff_rooted.mp normal with ⟨names, all, rfl⟩
  rw [pieces_join _ relative, directoryPieces_rooted all, List.cons_append, List.tail_cons,
    AreNames.append]
  exact and_iff_right all

theorem areNames_pieces_join_name_iff {base path : Path} {name : Text} (normal : base.IsNormal)
    (relative : path.isAbsolute = false) (isName : IsName name) :
    AreNames ((base.join path).join name).pieces.tail ↔ AreNames path.directoryPieces := by
  have nameRelative : isAbsolute name = false := isAbsolute_eq_false isName.no_slash
  have alone : pieces name = [name] := Text.split_of_not_mem isName.no_slash
  rcases IsNormal.iff_rooted.mp normal with ⟨names, all, rfl⟩
  rw [pieces_join _ nameRelative, directoryPieces_join _ relative, directoryPieces_rooted all,
    alone, List.cons_append, List.cons_append, List.tail_cons, AreNames.concat, AreNames.append]
  simp [all, isName]

theorem isAbsolute_append_of_ne_nil {path : Path} (nonempty : path ≠ []) (ending : Text) :
    isAbsolute (path ++ ending) = path.isAbsolute := by
  cases path with
  | nil => contradiction
  | cons char rest =>
      by_cases slash : char = '/'
      · subst slash
        rfl
      · simp [isAbsolute, slash]

theorem join_append (base : Path) {path : Path} (nonempty : path ≠ [])
    (relative : path.isAbsolute = false) (ending : Text) :
    base.join path ++ ending = base.join (path ++ ending) := by
  unfold join
  rw [isAbsolute_append_of_ne_nil nonempty, relative]
  split
  · contradiction
  · split <;> simp

theorem isPrefixOf_join (base : Path) {path : Path} (relative : path.isAbsolute = false) :
    base <+: base.join path := by
  unfold join
  rw [relative]
  split
  · contradiction
  · split
    · exact List.prefix_append base path
    · exact List.prefix_append base ('/' :: path)

theorem isAbsolute_join {base : Path} (absolute : base.isAbsolute) (path : Path) :
    (base.join path).isAbsolute = true := by
  rcases isAbsolute_iff.mp absolute with ⟨body, rfl⟩
  unfold join
  split
  · assumption
  · split <;> rfl

/-- A relative path goes on from the names of its base. -/
theorem absoluteFrom_of_not_isAbsolute {base path : Path} (absolute : base.isAbsolute)
    (relative : path.isAbsolute = false) :
    base.absoluteFrom path = rooted (followAll base.names path.pieces) := by
  rw [absoluteFrom, clean_of_isAbsolute (isAbsolute_join absolute path), names,
    followAll_pieces_join relative]
  rfl

theorem isNormal_absoluteFrom {base : Path} (absolute : base.isAbsolute) (path : Path) :
    (base.absoluteFrom path).IsNormal :=
  isNormal_clean (isAbsolute_join absolute path)

theorem absoluteFrom_of_isNormal {path : Path} (base : Path) (normal : path.IsNormal) :
    base.absoluteFrom path = path := by
  rw [absoluteFrom_of_isAbsolute base normal.absolute, normal.clean_eq]

/-! ## Above an absolute path everything is absolute -/

theorem isAbsolute_append {path : Path} (absolute : path.isAbsolute) (ending : Text) :
    isAbsolute (path ++ ending) = true := by
  rcases isAbsolute_iff.mp absolute with ⟨body, rfl⟩
  rfl

theorem isAbsolute_absoluteFrom {base : Path} (absolute : base.isAbsolute) (path : Path) :
    (base.absoluteFrom path).isAbsolute = true :=
  (isNormal_absoluteFrom absolute path).absolute

theorem isAbsolute_of_parent? {path above : Path} (absolute : path.isAbsolute)
    (parent : path.parent? = some above) : above.isAbsolute = true := by
  rcases isAbsolute_iff.mp absolute with ⟨body, rfl⟩
  have headed : headAndBody ('/' :: body) = (['/'], pieces body) := rfl
  rw [parent?, headed] at parent
  dsimp only at parent
  split at parent
  · simp at parent
  · rw [← Option.some.inj parent]
    rfl

theorem isAbsolute_parentOrSelf {path : Path} (absolute : path.isAbsolute) :
    path.parentOrSelf.isAbsolute = true := by
  unfold parentOrSelf
  cases parent : path.parent? with
  | none => exact absolute
  | some above => exact isAbsolute_of_parent? absolute parent

end Path

end ImportResolution
