import ImportResolution.Proofs.Locator.Files
import ImportResolution.Proofs.FileTree.Walk
import ImportResolution.Proofs.Path.LastPiece
import ImportResolution.Resolution.Importer

/-!
# The extension that a result keeps

A text is a directory part, a separator, a stem and an extension, and nothing is lost in
taking it apart (`Specifier.IsSplit`). The extension of a path is read off its components,
that of a specifier off its characters; on a cleaned path the two agree. So the file that a
root holds by the very name that was written has the extension that was written, and
`Specifier.isSplit_and_keeps_extension` says that the result for it keeps its extension.
-/

namespace ImportResolution

/-! ## The extension of a path -/

namespace Path

variable {path : Path} {before : List Text} {last : Text}

theorem extension_of_pieces (split : path.pieces = before ++ [last])
    (notBlank : isBlank last = false) : path.extension = Specifier.extension last := by
  rw [extension, fileName?_of_pieces split notBlank]
  by_cases parent : last = ['.', '.']
  · subst parent
    rfl
  · rw [if_neg parent]

/-- Of a clean path, the file name and the text have the same extension. -/
theorem extension_clean (path : Path) : path.clean.extension = Specifier.extension path.clean := by
  rcases clean_cases path with root | self | ⟨before, last, split, notBlank⟩
  · rw [root]
    rfl
  · rw [self]
    rfl
  · rw [extension_of_pieces split notBlank]
    rw [← joinWith_of_pieces split, Specifier.extension_joinWith_concat]

end Path

namespace Specifier

/-! ## What a text is made of -/

/-- A text, split at its last separator: what stands before it, if there is one, and after it. -/
inductive IsSplit : Specifier → Option Text → Text → Prop
  | alone {segment : Text} (plain : ∀ char ∈ segment, char ≠ '/' ∧ char ≠ '\\') :
      IsSplit segment none segment
  | below {directory segment : Text} {separator : Char}
      (separates : separator = '/' ∨ separator = '\\')
      (plain : ∀ char ∈ segment, char ≠ '/' ∧ char ≠ '\\') :
      IsSplit (directory ++ separator :: segment) (some directory) segment

/-- Nothing, or a dot with characters behind it that are neither dots nor separators. -/
def IsExtension (text : Text) : Prop :=
  text = [] ∨ ∃ ending, text = '.' :: ending ∧
    ∀ char ∈ ending, char ≠ '.' ∧ char ≠ '/' ∧ char ≠ '\\'

/-- Before a dot there is a character that is not a dot. -/
def HasInnerDot (segment : Text) : Prop :=
  ∃ before after, segment = before ++ '.' :: after ∧ ∃ char ∈ before, char ≠ '.'

theorem isSplit_splitName (specifier : Specifier) :
    specifier.IsSplit specifier.splitName.1 specifier.splitName.2 := by
  have plain : ∀ char ∈ specifier.splitName.2, char ≠ '/' ∧ char ≠ '\\' := by
    rcases not_mem_splitName_snd specifier with ⟨noSlash, noBackslash⟩
    intro char char_mem
    exact ⟨fun same => noSlash (same ▸ char_mem), fun same => noBackslash (same ▸ char_mem)⟩
  rcases splitName_cases specifier with
    ⟨alone, -⟩ | ⟨directory, separator, name, splits, whole, separates, -⟩
  · rw [alone] at plain ⊢
    exact .alone plain
  · rw [splits] at plain ⊢
    rw [whole]
    exact .below (by simpa [isSeparator] using separates) plain

theorem isExtension_extension (specifier : Specifier) : IsExtension specifier.extension := by
  by_cases none : specifier.extension = []
  · exact Or.inl none
  · rcases exists_eq_dot_of_extension_ne_nil none with ⟨ending, isEnding, noDot, -⟩
    rcases not_mem_splitName_snd specifier with ⟨noSlash, noBackslash⟩
    rw [← stem_append_extension, isEnding, List.mem_append, not_or, List.mem_cons, not_or]
      at noSlash noBackslash
    refine Or.inr ⟨ending, isEnding, ?_⟩
    intro char char_mem
    exact ⟨fun same => noDot (same ▸ char_mem), fun same => noSlash.2.2 (same ▸ char_mem),
      fun same => noBackslash.2.2 (same ▸ char_mem)⟩

/-- The last dot of a segment has before it what any dot has. -/
theorem exists_mem_before_last_dot {stem ending : Text} (noDot : '.' ∉ ending)
    (inner : HasInnerDot (stem ++ '.' :: ending)) : ∃ char ∈ stem, char ≠ '.' := by
  rcases inner with ⟨before, after, whole, char, char_mem, notDot⟩
  refine ⟨char, ?_, notDot⟩
  rcases List.append_eq_append_iff.mp whole with ⟨more, isBefore, rest⟩ | ⟨more, isStem, -⟩
  · cases more with
    | nil => simpa [isBefore] using char_mem
    | cons first more =>
        rw [List.cons_append, List.cons.injEq] at rest
        simp [rest.2] at noDot
  · rw [isStem]
    exact List.mem_append_left more char_mem

theorem extension_ne_nil_iff (specifier : Specifier) :
    specifier.extension ≠ [] ↔ HasInnerDot specifier.splitName.2 := by
  constructor
  · intro nonempty
    rcases exists_eq_dot_of_extension_ne_nil nonempty with ⟨ending, isEnding, -, inStem⟩
    exact ⟨specifier.stem, ending, by rw [← isEnding, stem_append_extension], inStem⟩
  · intro inner
    rw [extension, splitExtension]
    cases split : Text.splitAtLast? (· == '.') specifier.splitName.2 with
    | none =>
        rcases inner with ⟨before, after, whole, -⟩
        have noDot := Text.splitAtLast?_eq_none_iff.mp split '.' (by simp [whole])
        contradiction
    | some parts =>
        rcases Text.eq_append_of_splitAtLast? split with ⟨dot, whole, isDot, noDot⟩
        rw [beq_iff_eq] at isDot
        rw [whole, isDot] at inner
        have notDots : ¬(parts.1.all (· == '.')) = true := by
          simpa using exists_mem_before_last_dot (fun dot_mem => by simpa using noDot '.' dot_mem)
            inner
        dsimp only
        rw [if_neg notDots]
        exact List.cons_ne_nil '.' parts.2

end Specifier

/-! ## Exact hits -/

namespace Host

variable {host : Host} {root path : Path} {specifier : Specifier} {extensions : List Text}

/-- A path that is found itself is found as a file. -/
theorem directoryOnly_eq_false_of_moduleAt? {directoryOnly : Bool}
    (located : host.moduleAt? path extensions directoryOnly = some path) :
    directoryOnly = false := by
  have notDirectory := isDirectory_eq_false_of_isFile (isFile_of_moduleAt? located)
  rcases moduleAt?_cases located with ⟨mayBeFile, -⟩ | asDirectory
  · exact mayBeFile
  · simp [directoryAt?, notDirectory] at asDirectory

/-- A specifier for which a root holds the file of that very name has its extension. -/
theorem extension_of_exact
    (located : host.locate ('.' :: '/' :: specifier) root extensions =
      some (root.absoluteFrom ('.' :: '/' :: specifier))) :
    (root.absoluteFrom ('.' :: '/' :: specifier)).extension = specifier.extension := by
  rw [locate_of_isRelative rfl] at located
  rcases Specifier.exists_pieces_concat (by simp) (directoryOnly_eq_false_of_moduleAt? located)
    with ⟨steps, last, dotted, isName⟩
  have written : Path.pieces ('.' :: '/' :: specifier) = ['.'] :: Path.pieces specifier :=
    Text.split_append_separator ['.'] specifier
  rcases List.eq_nil_or_concat' (Path.pieces specifier) with none | ⟨before, name, split⟩
  · exact absurd none (Text.split_ne_nil '/' specifier)
  · rw [written, split, ← List.cons_append] at dotted
    have same := List.singleton_inj.mp (List.append_inj_right' dotted rfl)
    subst same
    have joined : (root.join ('.' :: '/' :: specifier)).pieces =
        (root.directoryPieces ++ ['.'] :: before) ++ [name] := by
      rw [Path.pieces_join root rfl, written, split]
      simp
    rcases Path.exists_pieces_clean joined isName with ⟨above, cleaned⟩
    rw [Path.absoluteFrom, Path.extension_of_pieces cleaned isName.isBlank_eq_false]
    rw [← Path.joinWith_of_pieces split, Specifier.extension_joinWith_concat]

end Host

namespace Specifier

/--
A text is taken apart into a directory part, a stem and an extension without loss, and it has
an extension exactly when a dot of its final segment has before it a character that is no dot.
A cleaned path has the same extension as its text. What a root holds by the very name that was
written keeps its extension in the result.
-/
theorem isSplit_and_keeps_extension (specifier : Specifier) :
    specifier.IsSplit specifier.splitName.1 (specifier.stem ++ specifier.extension) ∧
    IsExtension specifier.extension ∧
    (specifier.extension ≠ [] ↔ HasInnerDot (specifier.stem ++ specifier.extension)) ∧
    (∀ path : Path, path.clean.extension = extension path.clean) ∧
    ∀ (host : Host) (options : Options) (file root : Path),
      host.locate ('.' :: '/' :: specifier) root options.extensions =
          some (root.absoluteFrom ('.' :: '/' :: specifier)) →
        ofModule options file specifier (root.absoluteFrom ('.' :: '/' :: specifier)) =
          asRelative
            (wayFromImporter options.cwd file (root.absoluteFrom ('.' :: '/' :: specifier))) := by
  rw [stem_append_extension]
  refine ⟨isSplit_splitName specifier, isExtension_extension specifier,
    extension_ne_nil_iff specifier, Path.extension_clean, ?_⟩
  intro host options file root located
  rw [ofModule, if_pos (Host.extension_of_exact located)]

/-- A root with one file, whose name begins with two dots. -/
def dottedHost : Host where
  tree := ⟨[("r".toList, .directory [("..a.js".toList, .file (some []))])]⟩
  directory := ⟨[], 0⟩
  nodeEnv := none

theorem isSplit_and_keeps_extension_of_dotted :
    dottedHost.locate "./..a.js".toList "/r".toList { cwd := "/".toList : Options }.extensions =
      some "/r/..a.js".toList ∧
    ofModule { cwd := "/".toList } "/d/f".toList "..a.js".toList "/r/..a.js".toList =
      "../r/..a.js".toList := by
  have located : dottedHost.locate "./..a.js".toList "/r".toList
      { cwd := "/".toList : Options }.extensions = some "/r/..a.js".toList := by decide +kernel
  have kept := (isSplit_and_keeps_extension "..a.js".toList).2.2.2.2 dottedHost
    { cwd := "/".toList } "/d/f".toList "/r".toList located
  exact ⟨located, kept.trans (by decide +kernel)⟩

end Specifier

end ImportResolution
