import ImportResolution.Proofs.Path.Relative
import ImportResolution.Specifier

/-!
# Specifiers as lists of pieces

What a specifier asks for depends on its last piece: a name asks for a file or a
directory, anything else for a directory alone. This file reads the shape of a
specifier, its final segment and its extension off its pieces, and shows that writing
a specifier relative to the importer changes nothing of where it leads.
-/

namespace ImportResolution

theorem Path.extension_rooted_concat {names : List Text} {name : Text}
    (all : Path.AreNames (names ++ [name])) :
    (Path.rooted (names ++ [name])).extension = Specifier.extension name := by
  rw [Path.extension, Path.fileName?_rooted_concat all]

namespace Specifier

/-! ## Relative specifiers -/

theorem isAbsolute_eq_false_of_isRelative {specifier : Specifier}
    (relative : specifier.isRelative) :
    Path.isAbsolute specifier = false := by
  unfold isRelative at relative
  split at relative
  · rfl
  · rfl
  · simp at relative

theorem isAbsolute_eq_false_of_bare {specifier : Specifier} (bare : specifier.kind = .bare) :
    Path.isAbsolute specifier = false := by
  rw [Bool.eq_false_iff]
  intro absolute
  rcases Path.isAbsolute_iff.mp absolute with ⟨body, rfl⟩
  simp [kind, isRelative, isAbsolute] at bare

@[simp]
theorem isRelative_asRelative (specifier : Specifier) : specifier.asRelative.isRelative = true := by
  unfold asRelative
  split
  · assumption
  · split
    · rfl
    · split <;> rfl

/-- The relative form leads where the specifier leads. -/
theorem followAll_pieces_asRelative (names : List Text) (specifier : Specifier) :
    Path.followAll names (Path.pieces specifier.asRelative) =
      Path.followAll names (Path.pieces specifier) := by
  unfold asRelative
  split
  · rfl
  · split
    · rename_i here
      simp only [Bool.or_eq_true, decide_eq_true_eq] at here
      rcases here with rfl | rfl <;> rfl
    · split
      · rename_i parent
        subst parent
        rfl
      · have dotted : Path.pieces ('.' :: '/' :: specifier) = ['.'] :: Path.pieces specifier :=
          Text.split_append_separator ['.'] specifier
        rw [dotted]
        rfl

theorem absoluteFrom_asRelative {directory : Path} (absolute : directory.isAbsolute)
    (specifier : Specifier) :
    directory.absoluteFrom specifier.asRelative =
      Path.rooted (Path.followAll directory.names (Path.pieces specifier)) := by
  rw [Path.absoluteFrom_of_not_isAbsolute absolute
    (isAbsolute_eq_false_of_isRelative (isRelative_asRelative specifier)),
    followAll_pieces_asRelative]

/-! ## Specifiers for packages -/

/-- Is looked up in the packages above a directory. -/
structure NamesPackage (specifier : Specifier) : Prop where
  bare : specifier.kind = .bare
  ne_nil : specifier ≠ []
  ne_self : specifier ≠ ['.']
  ne_parent : specifier ≠ ['.', '.']

/-! ## Specifiers for directories alone -/

theorem isName_iff {piece : Text} (noSlash : '/' ∉ piece) :
    Path.IsName piece ↔ piece ≠ [] ∧ piece ≠ ['.'] ∧ piece ≠ ['.', '.'] := by
  rw [← Path.IsName.iff_conditions]
  simp [noSlash]

/-- After a slash, only a name can stand for a file. -/
theorem isDirectoryOnly_append_slash (left : Text) {last : Text} (noSlash : '/' ∉ last) :
    isDirectoryOnly (left ++ '/' :: last) = true ↔ ¬Path.IsName last := by
  have endsWith : ∀ ending : Text, '/' ∉ ending →
      (('/' :: ending).isSuffixOf (left ++ '/' :: last) = true ↔ ending = last) := by
    intro ending endingNoSlash
    rw [List.isSuffixOf_iff_suffix]
    exact Text.separator_cons_isSuffixOf noSlash endingNoSlash
  have slash_mem : '/' ∈ left ++ '/' :: last := by simp
  have notSelf : left ++ '/' :: last ≠ ['.'] := by
    intro same
    simp [same] at slash_mem
  have notParent : left ++ '/' :: last ≠ ['.', '.'] := by
    intro same
    simp [same] at slash_mem
  simp only [isDirectoryOnly, Bool.or_eq_true, beq_iff_eq, notSelf, notParent, false_or,
    endsWith [] (by simp), endsWith ['.'] (by simp), endsWith ['.', '.'] (by simp),
    isName_iff noSlash]
  grind

/-- The relative form asks for a directory alone unless the last piece is a name. -/
theorem isDirectoryOnly_asRelative (before : List Text) {last : Text} (noSlash : '/' ∉ last) :
    isDirectoryOnly (asRelative (Text.joinWith '/' (before ++ [last]))) = true ↔
      ¬Path.IsName last := by
  have written : (∃ left, asRelative (Text.joinWith '/' (before ++ [last])) = left ++ '/' :: last) ∨
      (before = [] ∧ (last = [] ∨ last = ['.'] ∨ last = ['.', '.'])) := by
    by_cases alone : before = []
    · by_cases special : last = [] ∨ last = ['.'] ∨ last = ['.', '.']
      · exact Or.inr ⟨alone, special⟩
      · have notRelative : isRelative last = false := by
          unfold isRelative
          split <;> simp_all
        refine Or.inl ⟨['.'], ?_⟩
        simp_all [asRelative, Text.joinWith]
    · rw [Text.joinWith_concat alone]
      refine Or.inl ?_
      have slash_mem : '/' ∈ Text.joinWith '/' before ++ '/' :: last := by simp
      unfold asRelative
      split
      · exact ⟨_, rfl⟩
      · split
        · rename_i here
          simp only [Bool.or_eq_true, decide_eq_true_eq] at here
          rcases here with self | nothing
          · simp [self] at slash_mem
          · simp [nothing] at slash_mem
        · split
          · rename_i parent
            simp [parent] at slash_mem
          · exact ⟨'.' :: '/' :: Text.joinWith '/' before, rfl⟩
  rcases written with ⟨left, written⟩ | ⟨rfl, rfl | rfl | rfl⟩
  · rw [written, isDirectoryOnly_append_slash left noSlash]
  · decide
  · decide
  · decide

/-- A specifier asks for a directory alone unless its last piece is a name. -/
theorem isDirectoryOnly_iff_of_pieces {specifier : Specifier} {before : List Text} {last : Text}
    (nonempty : specifier ≠ []) (split : Path.pieces specifier = before ++ [last]) :
    specifier.isDirectoryOnly = true ↔ ¬Path.IsName last := by
  have last_mem : last ∈ Path.pieces specifier := by simp [split]
  have noSlash : '/' ∉ last := Text.not_mem_of_mem_split last_mem
  have joined := Path.joinWith_of_pieces split
  by_cases alone : before = []
  · have same : last = specifier := by simpa [alone, Text.joinWith] using joined
    have noSuffix : ∀ ending : Text, ('/' :: ending).isSuffixOf specifier = false := by
      intro ending
      rw [Bool.eq_false_iff, ne_eq, List.isSuffixOf_iff_suffix]
      intro suffix
      exact noSlash (same ▸ suffix.subset (by simp))
    subst same
    simpa [isDirectoryOnly, noSuffix, isName_iff noSlash, nonempty] using or_iff_not_imp_left
  · rw [Text.joinWith_concat alone] at joined
    rw [← joined, isDirectoryOnly_append_slash _ noSlash]

/-- A specifier that may name a file ends in a name. -/
theorem exists_pieces_concat {specifier : Specifier} (nonempty : specifier ≠ [])
    (mayBeFile : specifier.isDirectoryOnly = false) :
    ∃ before last, Path.pieces specifier = before ++ [last] ∧ Path.IsName last := by
  rcases List.eq_nil_or_concat' (Path.pieces specifier) with none | ⟨before, last, split⟩
  · exact absurd none (Text.split_ne_nil '/' specifier)
  · refine ⟨before, last, split, ?_⟩
    by_contra notName
    rw [(isDirectoryOnly_iff_of_pieces nonempty split).mpr notName] at mayBeFile
    contradiction

section Dotted

variable {specifier : Specifier} {before : List Text} {last : Text}

theorem isDirectoryOnly_dotted (split : Path.pieces specifier = before ++ [last])
    (isName : Path.IsName last) : isDirectoryOnly ('.' :: '/' :: specifier) = false := by
  have dotted : Path.pieces ('.' :: '/' :: specifier) = ['.'] :: Path.pieces specifier :=
    Text.split_append_separator ['.'] specifier
  rw [split, ← List.cons_append] at dotted
  rw [Bool.eq_false_iff, ne_eq, isDirectoryOnly_iff_of_pieces (by simp) dotted]
  exact not_not_intro isName

theorem absoluteFrom_dotted {directory : Path} (absolute : directory.isAbsolute)
    (split : Path.pieces specifier = before ++ [last]) (isName : Path.IsName last) :
    directory.absoluteFrom ('.' :: '/' :: specifier) =
      Path.rooted (Path.followAll directory.names before ++ [last]) := by
  have dotted : Path.pieces ('.' :: '/' :: specifier) = ['.'] :: Path.pieces specifier :=
    Text.split_append_separator ['.'] specifier
  rw [Path.absoluteFrom_of_not_isAbsolute absolute rfl, dotted, split, Path.followAll_cons,
    Path.follow_of_isBlank rfl, Path.followAll_append, Path.followAll_singleton,
    Path.follow_of_isName isName]

end Dotted

/-! ## The final segment -/

theorem isSeparator_eq_false_of_mem {name : Text} (noSlash : '/' ∉ name)
    (noBackslash : '\\' ∉ name) : ∀ char ∈ name, isSeparator char = false := by
  intro char char_mem
  have notSlash : char ≠ '/' := fun same => noSlash (same ▸ char_mem)
  have notBackslash : char ≠ '\\' := fun same => noBackslash (same ▸ char_mem)
  simp [isSeparator, notSlash, notBackslash]

/-- What stands after a slash and has no separator is the final segment. -/
theorem splitName_append_slash (directory : Text) {name : Text} (noSlash : '/' ∉ name)
    (noBackslash : '\\' ∉ name) :
    splitName (directory ++ '/' :: name) = (some directory, name) := by
  rw [splitName, Text.splitAtLast?_append directory (by decide)
    (isSeparator_eq_false_of_mem noSlash noBackslash)]

theorem splitName_joinWith_concat (before : List Text) {name : Text} (noSlash : '/' ∉ name)
    (noBackslash : '\\' ∉ name) :
    splitName (Text.joinWith '/' (before ++ [name])) =
      (if before.isEmpty then none else some (Text.joinWith '/' before), name) := by
  by_cases alone : before = []
  · simp [alone, splitName, Text.joinWith, Text.splitAtLast?_eq_none_iff.mpr
      (isSeparator_eq_false_of_mem noSlash noBackslash)]
  · rw [Text.joinWith_concat alone, splitName_append_slash _ noSlash noBackslash]
    simp [alone]

theorem splitName_of_pieces {specifier : Specifier} {before : List Text} {last : Text}
    (split : Path.pieces specifier = before ++ [last]) (noBackslash : '\\' ∉ last) :
    specifier.splitName =
      (if before.isEmpty then none else some (Text.joinWith '/' before), last) := by
  have last_mem : last ∈ Path.pieces specifier := by simp [split]
  have joined := Path.joinWith_of_pieces split
  rw [← joined, splitName_joinWith_concat before (Text.not_mem_of_mem_split last_mem) noBackslash]

/-- The extension of a specifier is that of its last piece. -/
theorem extension_of_pieces {specifier : Specifier} {before : List Text} {last : Text}
    (split : Path.pieces specifier = before ++ [last]) (noBackslash : '\\' ∉ last) :
    specifier.extension = extension last := by
  have last_mem : last ∈ Path.pieces specifier := by simp [split]
  have alone : Path.pieces last = [] ++ [last] :=
    Text.split_of_not_mem (Text.not_mem_of_mem_split last_mem)
  rw [extension, extension, splitName_of_pieces split noBackslash,
    splitName_of_pieces alone noBackslash]

theorem isAbsolute_append_slash (directory first second : Text) :
    Path.isAbsolute (directory ++ '/' :: first) = Path.isAbsolute (directory ++ '/' :: second) := by
  cases directory with
  | nil => rfl
  | cons char rest =>
      by_cases slash : char = '/'
      · subst slash
        rfl
      · simp [Path.isAbsolute, slash]

/-- With a slash or a name at its end, the relative form has at most one more piece in front. -/
theorem exists_asRelative_eq_joinWith {before : List Text} {last : Text}
    (noSlash : ∀ piece ∈ before, '/' ∉ piece) (lastNoSlash : '/' ∉ last)
    (usual : before ≠ [] ∨ Path.IsName last) :
    ∃ lead, (lead = [] ∨ lead = [['.']]) ∧ lead ++ before ≠ [] ∧
      asRelative (Text.joinWith '/' (before ++ [last])) =
        Text.joinWith '/' (lead ++ before ++ [last]) := by
  have split := Path.pieces_joinWith_concat noSlash lastNoSlash
  -- The three texts that are written in another way are one piece each, and no name.
  have special : ∀ text ∈ [[], ['.'], ['.', '.']],
      Path.pieces text = [] ++ [text] ∧ ¬Path.IsName text := by decide
  have ordinary : ∀ text ∈ [[], ['.'], ['.', '.']],
      Text.joinWith '/' (before ++ [last]) ≠ text := by
    intro text text_mem same
    rcases special text text_mem with ⟨onePiece, notName⟩
    rw [same, onePiece] at split
    rcases usual with nonempty | isName
    · exact nonempty (List.append_inj_left' split rfl).symm
    · have isText : text = last := List.singleton_inj.mp (List.append_inj_right' split rfl)
      exact notName (isText ▸ isName)
  unfold asRelative
  split
  · rename_i relative
    refine ⟨[], Or.inl rfl, ?_, rfl⟩
    rintro rfl
    have slash_mem : '/' ∈ last := by
      simp only [List.nil_append, Text.joinWith, isRelative] at relative
      split at relative <;> simp_all
    exact lastNoSlash slash_mem
  · rw [if_neg (by simp [ordinary]), if_neg (ordinary _ (by simp))]
    refine ⟨[['.']], Or.inr rfl, by simp, ?_⟩
    cases before <;> rfl

/-- The relative form ends in the same piece, after a directory that leads where the rest leads. -/
theorem exists_splitName_asRelative {before : List Text} {last : Text}
    (noSlash : ∀ piece ∈ before, '/' ∉ piece) (lastNoSlash : '/' ∉ last)
    (noBackslash : '\\' ∉ last) (usual : before ≠ [] ∨ Path.IsName last) :
    ∃ directory, (asRelative (Text.joinWith '/' (before ++ [last]))).splitName =
        (some directory, last) ∧
      (∀ name, Path.isAbsolute (directory ++ '/' :: name) = false) ∧
      ∀ names, Path.followAll names (Path.pieces directory) = Path.followAll names before := by
  rcases exists_asRelative_eq_joinWith noSlash lastNoSlash usual with
    ⟨lead, leadEq, nonempty, written⟩
  refine ⟨Text.joinWith '/' (lead ++ before), ?_, ?_, ?_⟩
  · rw [written, splitName_joinWith_concat _ lastNoSlash noBackslash]
    simp [nonempty]
  · intro name
    have relative := isAbsolute_eq_false_of_isRelative
      (isRelative_asRelative (Text.joinWith '/' (before ++ [last])))
    rw [written, Text.joinWith_concat nonempty] at relative
    rw [isAbsolute_append_slash _ name last, relative]
  · intro names
    have leadNoSlash : ∀ piece ∈ lead ++ before, '/' ∉ piece := by
      rcases leadEq with rfl | rfl
      · exact noSlash
      · simpa using noSlash
    rw [Path.followAll_pieces_joinWith leadNoSlash, Path.followAll_append]
    rcases leadEq with rfl | rfl <;> rfl

/-- Unless it is `..` alone, the relative form names its last piece in a directory. -/
theorem exists_directory_asRelative {before : List Text} {last : Text}
    (noSlash : ∀ piece ∈ before, '/' ∉ piece) (lastNoSlash : '/' ∉ last)
    (noBackslash : '\\' ∉ last) (notParent : before = [] → last ≠ ['.', '.']) :
    ∃ directory, (asRelative (Text.joinWith '/' (before ++ [last]))).splitName.1 =
        some directory ∧
      (∀ name, Path.isAbsolute (directory ++ '/' :: name) = false) ∧
      ∀ names, Path.followAll names (Path.pieces directory) = Path.followAll names before := by
  by_cases usual : before ≠ [] ∨ Path.IsName last
  · rcases exists_splitName_asRelative noSlash lastNoSlash noBackslash usual with
      ⟨directory, splits, relative, leads⟩
    exact ⟨directory, by rw [splits], relative, leads⟩
  · rw [not_or, not_ne_iff, isName_iff lastNoSlash] at usual
    rcases usual with ⟨rfl, notName⟩
    -- What is left is the importing directory itself, written in one of two ways.
    have here : last = [] ∨ last = ['.'] := by
      have notParent := notParent rfl
      tauto
    refine ⟨['.'], ?_, fun _ => rfl, fun _ => rfl⟩
    rcases here with rfl | rfl <;> rfl

/-- A text without separators is one segment; any other is split at its last separator. -/
theorem splitName_cases (specifier : Specifier) :
    (specifier.splitName = (none, specifier) ∧ ∀ char ∈ specifier, isSeparator char = false) ∨
      ∃ directory separator name, specifier.splitName = (some directory, name) ∧
        specifier = directory ++ separator :: name ∧ isSeparator separator = true ∧
        ∀ char ∈ name, isSeparator char = false := by
  unfold splitName
  cases split : Text.splitAtLast? isSeparator specifier with
  | none => exact Or.inl ⟨rfl, Text.splitAtLast?_eq_none_iff.mp split⟩
  | some parts =>
      rcases Text.eq_append_of_splitAtLast? split with ⟨separator, whole, isSeparator, segment⟩
      exact Or.inr ⟨parts.1, separator, parts.2, rfl, whole, isSeparator, segment⟩

theorem not_mem_splitName_snd (specifier : Specifier) :
    '/' ∉ specifier.splitName.2 ∧ '\\' ∉ specifier.splitName.2 := by
  have segment : ∀ char ∈ specifier.splitName.2, isSeparator char = false := by
    rcases splitName_cases specifier with
      ⟨alone, segment⟩ | ⟨directory, separator, name, splits, -, -, segment⟩
    · simpa [alone] using segment
    · simpa [splits] using segment
  constructor
  · intro slash_mem
    simpa [isSeparator] using segment '/' slash_mem
  · intro backslash_mem
    simpa [isSeparator] using segment '\\' backslash_mem

/-- What stands before a slash takes nothing from the final segment. -/
theorem splitName_append_slash_snd (directory name : Text) :
    (splitName (directory ++ '/' :: name)).2 = (splitName name).2 := by
  rcases splitName_cases name with
    ⟨alone, segment⟩ | ⟨above, separator, last, splits, rfl, isSeparator, segment⟩
  · rw [alone, splitName, Text.splitAtLast?_append directory (by decide) segment]
  · have longer : directory ++ '/' :: (above ++ separator :: last) =
        (directory ++ '/' :: above) ++ separator :: last := by simp
    rw [splits, longer, splitName, Text.splitAtLast?_append _ isSeparator segment]

/-! ## Stem and extension -/

theorem extension_joinWith_concat (before : List Text) (name : Text) :
    extension (Text.joinWith '/' (before ++ [name])) = extension name := by
  by_cases alone : before = []
  · simp [alone, Text.joinWith]
  · rw [Text.joinWith_concat alone, extension, splitName_append_slash_snd, extension]

theorem stem_append_extension (specifier : Specifier) :
    specifier.stem ++ specifier.extension = specifier.splitName.2 := by
  rw [stem, extension, splitExtension]
  cases split : Text.splitAtLast? (· == '.') specifier.splitName.2 with
  | none => simp
  | some pieces =>
      rcases Text.eq_append_of_splitAtLast? split with ⟨dot, whole, isDot, -⟩
      rw [beq_iff_eq] at isDot
      dsimp only
      split
      · simp
      · rw [whole, isDot]

/-- An extension is a dot with what follows the last dot, and the stem is not made of dots. -/
theorem exists_eq_dot_of_extension_ne_nil {specifier : Specifier}
    (nonempty : specifier.extension ≠ []) :
    ∃ ending, specifier.extension = '.' :: ending ∧ '.' ∉ ending ∧
      ∃ char ∈ specifier.stem, char ≠ '.' := by
  rw [extension, splitExtension] at nonempty
  rw [extension, stem, splitExtension]
  cases split : Text.splitAtLast? (· == '.') specifier.splitName.2 with
  | none => simp [split] at nonempty
  | some pieces =>
      rcases Text.eq_append_of_splitAtLast? split with ⟨_, -, -, noDot⟩
      rw [split] at nonempty
      dsimp only at nonempty ⊢
      split at nonempty
      · simp at nonempty
      · rename_i notDots
        rw [if_neg notDots]
        refine ⟨pieces.2, rfl, ?_, ?_⟩
        · intro dot_mem
          simpa using noDot '.' dot_mem
        · simpa using notDots

/-- What is left of a file name that loses the first of some extensions that it ends with. -/
def nameWithout (name : Text) (extensions : List Text) : Text :=
  (extensions.findSome? fun ending => ending.isSuffixOf? name).getD name

/-- Only the final segment loses an extension. -/
theorem withoutExtension_joinWith_concat (before : List Text) {name : Text}
    (noSlash : '/' ∉ name) (noBackslash : '\\' ∉ name) (extensions : List Text) :
    withoutExtension (Text.joinWith '/' (before ++ [name])) extensions =
      Text.joinWith '/' (before ++ [nameWithout name extensions]) := by
  rw [withoutExtension, splitName_joinWith_concat before noSlash noBackslash]
  by_cases alone : before = []
  · simp [alone, withDirectory, nameWithout, Text.joinWith]
  · rw [Text.joinWith_concat alone]
    simp [alone, withDirectory, nameWithout]

end Specifier

end ImportResolution
