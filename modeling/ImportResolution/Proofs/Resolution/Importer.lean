import ImportResolution.Proofs.Locator.Files
import ImportResolution.Resolution.Importer

/-!
# Results looked up from the importer

A result leads from the directory of the importing file to the module that was found,
except that its last piece may have lost an extension (`Specifier.keptName`). Looking a
result up from there is therefore looking up one path: the directory of the module with
what was kept of its name (`Specifier.locate_ofModule`).
-/

namespace ImportResolution

namespace Specifier

/-- What a result keeps of the name of the file that was found. -/
def keptName (options : Options) (specifier : Specifier) (name : Text) : Text :=
  if extension name = specifier.extension then name
  else nameWithout name options.stripExtensions

theorem nameWithout_append (name : Text) (extensions : List Text) :
    nameWithout name extensions = name ∨
      ∃ ending ∈ extensions, nameWithout name extensions ++ ending = name := by
  unfold nameWithout
  cases lost : extensions.findSome? fun ending => ending.isSuffixOf? name with
  | none => exact Or.inl rfl
  | some kept =>
      rcases List.exists_of_findSome?_eq_some lost with ⟨ending, ending_mem, taken⟩
      exact Or.inr ⟨ending, ending_mem, List.isSuffixOf?_eq_some_iff_append_eq.mp taken⟩

theorem nameWithout_begins (name : Text) (extensions : List Text) :
    nameWithout name extensions <+: name := by
  rcases nameWithout_append name extensions with same | ⟨ending, -, whole⟩
  · exact ⟨[], by rw [List.append_nil, same]⟩
  · exact ⟨ending, whole⟩

theorem keptName_begins (options : Options) (specifier : Specifier) (name : Text) :
    keptName options specifier name <+: name := by
  unfold keptName
  split
  · exact List.prefix_rfl
  · exact nameWithout_begins name options.stripExtensions

/-- An ending that was added is the one that is lost when no extension ends in another. -/
theorem nameWithout_append_ending {extensions : List Text} {ending : Text}
    (noProperSuffix : ∀ first ∈ extensions, ∀ second ∈ extensions,
      first <:+ second → first = second)
    (ending_mem : ending ∈ extensions) (name : Text) :
    nameWithout (name ++ ending) extensions = name := by
  unfold nameWithout
  cases lost : extensions.findSome? fun other => other.isSuffixOf? (name ++ ending) with
  | none =>
      have notSuffix := List.findSome?_eq_none_iff.mp lost ending ending_mem
      have isSuffix : ending.isSuffixOf? (name ++ ending) = some name :=
        List.isSuffixOf?_eq_some_iff_append_eq.mpr rfl
      simp [isSuffix] at notSuffix
  | some kept =>
      rcases List.exists_of_findSome?_eq_some lost with ⟨other, other_mem, taken⟩
      have whole : kept ++ other = name ++ ending :=
        List.isSuffixOf?_eq_some_iff_append_eq.mp taken
      have same : other = ending := by
        rcases List.suffix_or_suffix_of_suffix ⟨kept, whole⟩ (List.suffix_append name ending) with
          inEnding | inOther
        · exact noProperSuffix other other_mem ending ending_mem inEnding
        · exact (noProperSuffix ending ending_mem other other_mem inOther).symm
      subst same
      exact List.append_cancel_right whole

/-- The way to a target without backslashes is written as it is. -/
theorem wayFromImporter_eq_joinWith {cwd file target : Path} {names : List Text}
    (fileNormal : file.IsNormal) (all : Path.AreNames names)
    (leads : cwd.absoluteFrom target = Path.rooted names)
    (noBackslash : '\\' ∉ Path.rooted names) :
    wayFromImporter cwd file target =
      Text.joinWith '/' (Path.way file.parentOrSelf.names names) := by
  have relative := Path.relativeTo_eq_joinWith fileNormal.parentOrSelf.absolute
    (Path.isAbsolute_rooted names)
  rw [Path.names_rooted all] at relative
  rw [wayFromImporter, leads, relative, withSlashes, Text.replaceChar_of_not_mem]
  intro backslash_mem
  rcases Text.mem_joinWith backslash_mem with isSlash | ⟨step, step_mem, inStep⟩
  · simp at isSlash
  · rcases Path.mem_way all step_mem with rfl | ⟨inNames, -⟩
    · simp at inStep
    · exact noBackslash (List.mem_cons_of_mem '/' (Text.mem_joinWith_of_mem inNames inStep))

/-- A result for a file that does not lie on the way up from the importer. -/
theorem exists_ofModule_eq {options : Options} {file : Path} {specifier : Specifier}
    {directory : List Text} {name : Text} (fileNormal : file.IsNormal)
    (all : Path.AreNames (directory ++ [name]))
    (noBackslash : '\\' ∉ Path.rooted (directory ++ [name]))
    (below : ¬directory ++ [name] <+: file.parentOrSelf.names) :
    ∃ before, (∀ step ∈ before, '/' ∉ step) ∧
      Path.followAll file.parentOrSelf.names before = directory ∧
      ofModule options file specifier (Path.rooted (directory ++ [name])) =
        asRelative (Text.joinWith '/' (before ++ [keptName options specifier name])) := by
  rcases Path.exists_way_concat all below with ⟨before, wayEq, arrives⟩
  have nameNoSlash : '/' ∉ name := (Path.AreNames.concat.mp all).2.no_slash
  have nameNoBackslash : '\\' ∉ name := fun mem =>
    noBackslash (List.mem_cons_of_mem '/' (Text.mem_joinWith_of_mem (by simp) mem))
  have written : wayFromImporter options.cwd file (Path.rooted (directory ++ [name])) =
      Text.joinWith '/' (before ++ [name]) := by
    rw [← wayEq]
    exact wayFromImporter_eq_joinWith fileNormal all
      (Path.absoluteFrom_of_isNormal options.cwd (Path.isNormal_rooted all)) noBackslash
  refine ⟨before, ?_, arrives, ?_⟩
  · intro step step_mem
    exact (Path.isStep_of_mem_way all (wayEq ▸ List.mem_append_left [name] step_mem)).2
  · rw [ofModule, written, Path.extension_rooted_concat all, keptName]
    split
    · rfl
    · rw [withoutExtension_joinWith_concat before nameNoSlash nameNoBackslash]

/-- What was kept of a name has no slash and no backslash that the name has not. -/
theorem not_mem_keptName {options : Options} {specifier : Specifier} {name : Text} {char : Char}
    (absent : char ∉ name) : char ∉ keptName options specifier name :=
  fun char_mem => absent ((keptName_begins options specifier name).subset char_mem)

section Found

variable {host : Host} {options : Options} {file : Path} {specifier : Specifier}
  {directory : List Text} {name : Text} (fileNormal : file.IsNormal)
  (all : Path.AreNames (directory ++ [name]))
  (noBackslash : '\\' ∉ Path.rooted (directory ++ [name]))
  (below : ¬directory ++ [name] <+: file.parentOrSelf.names)

include fileNormal all noBackslash below

/-- A result leads to the directory of the file, and there to what was kept of its name. -/
theorem absoluteFrom_ofModule_eq_rooted (options : Options) (specifier : Specifier) :
    file.parentOrSelf.absoluteFrom
        (ofModule options file specifier (Path.rooted (directory ++ [name]))) =
      Path.rooted (Path.follow directory (keptName options specifier name)) := by
  rcases exists_ofModule_eq fileNormal all noBackslash below with
    ⟨before, noSlash, arrives, written⟩
  have keptNoSlash : '/' ∉ keptName options specifier name :=
    not_mem_keptName (Path.AreNames.concat.mp all).2.no_slash
  rw [written, absoluteFrom_asRelative fileNormal.parentOrSelf.absolute,
    Path.pieces_joinWith_concat noSlash keptNoSlash, Path.followAll_append, arrives]
  rfl

/-- Looking a result up from the importer is looking up what was kept of the file's path. -/
theorem locate_ofModule (extensions : List Text) :
    host.locate (ofModule options file specifier (Path.rooted (directory ++ [name])))
        file.parentOrSelf extensions =
      host.moduleAt? (Path.rooted (Path.follow directory (keptName options specifier name)))
        extensions (!decide (Path.IsName (keptName options specifier name))) := by
  have leads := absoluteFrom_ofModule_eq_rooted fileNormal all noBackslash below options specifier
  rcases exists_ofModule_eq fileNormal all noBackslash below with ⟨before, -, -, written⟩
  have keptNoSlash : '/' ∉ keptName options specifier name :=
    not_mem_keptName (Path.AreNames.concat.mp all).2.no_slash
  have directoryOnly : isDirectoryOnly (asRelative (Text.joinWith '/'
      (before ++ [keptName options specifier name]))) =
      !decide (Path.IsName (keptName options specifier name)) := by
    rw [Bool.eq_iff_iff, isDirectoryOnly_asRelative before keptNoSlash]
    simp
  rw [written] at leads ⊢
  rw [Host.locate_of_isRelative (isRelative_asRelative _), directoryOnly, leads]

end Found

end Specifier

end ImportResolution
