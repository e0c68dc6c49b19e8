import ImportResolution.Proofs.Resolution.Importer

/-!
# The extension that a result loses

A result leads from the directory of the importing file to the file that was found, except
that the name may have lost an ending. `Specifier.absoluteFrom_ofModule` says that there is
nothing else to it: the ending is the first of the extensions that may be lost, it is lost
once, and it is lost only where the extension is not the one that was written.
-/

namespace ImportResolution

namespace Specifier

variable {name kept ending : Text} {extensions : List Text}

/-- A name that ends with none of the extensions loses nothing. -/
theorem nameWithout_of_no_ending (noEnding : ∀ ending ∈ extensions, ¬ending <:+ name) :
    nameWithout name extensions = name := by
  rcases nameWithout_append name extensions with same | ⟨ending, ending_mem, whole⟩
  · exact same
  · exact absurd ⟨nameWithout name extensions, whole⟩ (noEnding ending ending_mem)

/-- A name loses the first of the extensions with which it ends. -/
theorem nameWithout_of_first (whole : name = kept ++ ending)
    (first : extensions.find? (fun other => other.isSuffixOf name) = some ending) :
    nameWithout name extensions = kept := by
  rcases List.find?_eq_some_iff_append.mp first with ⟨-, earlier, later, listed, notEarlier⟩
  have taken : ending.isSuffixOf? name = some kept :=
    List.isSuffixOf?_eq_some_iff_append_eq.mpr whole.symm
  have noneBefore : ∀ other ∈ earlier, other.isSuffixOf? name = none := by
    intro other other_mem
    rw [← Option.isNone_iff_eq_none, ← Option.isSome_eq_false_iff,
      List.isSome_isSuffixOf?_eq_isSuffixOf]
    simpa using notEarlier other other_mem
  have lost : extensions.findSome? (fun other => other.isSuffixOf? name) = some kept :=
    List.findSome?_eq_some_iff.mpr ⟨earlier, ending, later, listed, taken, noneBefore⟩
  rw [nameWithout, lost]
  rfl

variable {options : Options} {file found : Path} {specifier : Specifier}

/--
A result leads to the file that was found when the extension is the one that was written, or
when the name ends with none of the extensions that may be lost. Otherwise it leads to the name
without the first of these endings, in the same directory, as long as a name is left.
-/
theorem absoluteFrom_ofModule (options : Options) (specifier : Specifier)
    (fileNormal : file.IsNormal) (foundNormal : found.IsNormal) (noBackslash : '\\' ∉ found)
    (below : ¬found.names <+: file.parentOrSelf.names) :
    ∃ directory name, found.parent? = some directory ∧ found.fileName? = some name ∧
      (found.extension = specifier.extension ∨
          (∀ ending ∈ options.stripExtensions, ¬ending <:+ name) →
        file.parentOrSelf.absoluteFrom (ofModule options file specifier found) = found) ∧
      ∀ kept ending, found.extension ≠ specifier.extension → name = kept ++ ending →
        options.stripExtensions.find? (fun other => other.isSuffixOf name) = some ending →
        kept ≠ [] → kept ≠ ['.'] → kept ≠ ['.', '.'] →
        file.parentOrSelf.absoluteFrom (ofModule options file specifier found) =
            directory.join kept ∧
          file.parentOrSelf.absoluteFrom (ofModule options file specifier found) ++ ending =
            found := by
  rcases foundNormal.exists_rooted_concat below with ⟨directory, name, rfl, all, below⟩
  rcases Path.AreNames.concat.mp all with ⟨directoryNames, isName⟩
  have leads := absoluteFrom_ofModule_eq_rooted fileNormal all noBackslash below options specifier
  refine ⟨Path.rooted directory, name, Path.parent?_rooted_concat all,
    Path.fileName?_rooted_concat all, ?_, ?_⟩
  · intro losesNothing
    have whole : keptName options specifier name = name := by
      unfold keptName
      split
      · rfl
      · rename_i differs
        rw [Path.extension_rooted_concat all] at losesNothing
        exact nameWithout_of_no_ending (losesNothing.resolve_left differs)
    rw [leads, whole, Path.follow_of_isName isName]
  · intro kept ending differs whole first nonempty notSelf notParent
    rw [Path.extension_rooted_concat all] at differs
    have isKept : keptName options specifier name = kept := by
      rw [keptName, if_neg differs, nameWithout_of_first whole first]
    have keptNoSlash : '/' ∉ kept := by
      rw [← isKept]
      exact not_mem_keptName isName.no_slash
    have keptIsName := (isName_iff keptNoSlash).mpr ⟨nonempty, notSelf, notParent⟩
    rw [leads, isKept, Path.follow_of_isName keptIsName, Path.join_rooted directoryNames keptIsName]
    refine ⟨rfl, ?_⟩
    rw [Path.rooted_concat_append, whole]

/-- Two endings may be lost here, and the first of them stands at the end of the second. -/
def minOptions : Options where
  cwd := "/".toList
  stripExtensions := [".js".toList, ".min.js".toList]

theorem absoluteFrom_ofModule_of_min :
    ofModule minOptions "/d/f".toList "a".toList "/r/a.min.js".toList = "../r/a.min".toList ∧
    Path.absoluteFrom "/d".toList "../r/a.min".toList ++ ".js".toList = "/r/a.min.js".toList ∧
    Path.absoluteFrom "/d".toList
        (ofModule minOptions "/d/f".toList "b.js".toList "/r/a.min.js".toList) =
      "/r/a.min.js".toList := by
  have fileNormal : Path.IsNormal "/d/f".toList := ⟨by decide, by decide⟩
  have foundNormal : Path.IsNormal "/r/a.min.js".toList := ⟨by decide, by decide⟩
  have result : ofModule minOptions "/d/f".toList "a".toList "/r/a.min.js".toList =
      "../r/a.min".toList := by decide
  rcases absoluteFrom_ofModule minOptions "a".toList fileNormal foundNormal (by decide)
    (by decide) with ⟨directory, name, -, isName, -, loses⟩
  rcases absoluteFrom_ofModule minOptions "b.js".toList fileNormal foundNormal (by decide)
    (by decide) with ⟨_, _, -, -, keeps, -⟩
  have nameEq : name = "a.min.js".toList := (Option.some.inj isName).symm
  subst nameEq
  refine ⟨result, ?_, keeps (Or.inl (by decide))⟩
  have leads := loses "a.min".toList ".js".toList (by decide) (by decide) (by decide) (by decide)
    (by decide) (by decide)
  rw [result] at leads
  exact leads.2

end Specifier

end ImportResolution
