import ImportResolution.Proofs.Locator.Candidates
import ImportResolution.Proofs.Locator.Guards
import ImportResolution.Proofs.Locator.Packages

/-!
# Packages looked up by relative specifiers

A package is looked up in `node_modules` as it is written, and only where there is such a
directory. A relative specifier is cleaned first, and no directory is asked for. For a tidy
specifier the two find the same (`Host.locate_inPackages`): cleaning takes away at most the
slash at its end, and asking for a directory first decides nothing (`Host.directoryAt?_eq_or`).

So the packages above a directory are those that relative specifiers find, one after the
other on the way up to the root (`Host.locate_eq_findSome?_above`).
-/

namespace ImportResolution

namespace Specifier

/-- The relative specifier for a package of the directory from which it is taken. -/
def inPackages (specifier : Specifier) : Specifier :=
  "./node_modules/".toList ++ specifier

variable {specifier : Specifier}

theorem pieces_inPackages (specifier : Specifier) :
    Path.pieces specifier.inPackages =
      ['.'] :: "node_modules".toList :: Path.pieces specifier := by
  have below : Path.pieces ("node_modules".toList ++ '/' :: specifier) =
      "node_modules".toList :: Path.pieces specifier :=
    Text.split_append_separator "node_modules".toList specifier
  rw [← below]
  exact Text.split_append_separator ['.'] ("node_modules".toList ++ '/' :: specifier)

/-- Both end in the same piece, which says whether a directory alone is asked for. -/
theorem isDirectoryOnly_inPackages (nonempty : specifier ≠ []) :
    specifier.inPackages.isDirectoryOnly = specifier.isDirectoryOnly := by
  rcases List.eq_nil_or_concat' (Path.pieces specifier) with none | ⟨before, last, split⟩
  · exact absurd none (Text.split_ne_nil '/' specifier)
  · have longer := pieces_inPackages specifier
    rw [split, ← List.cons_append, ← List.cons_append] at longer
    have longerNonempty : specifier.inPackages ≠ [] :=
      List.append_ne_nil_of_left_ne_nil (by decide) specifier
    rw [Bool.eq_iff_iff, isDirectoryOnly_iff_of_pieces longerNonempty longer,
      isDirectoryOnly_iff_of_pieces nonempty split]

theorem IsTidy.namesPackage (tidy : specifier.IsTidy) (bare : specifier.kind = .bare)
    (nonempty : specifier ≠ []) : specifier.NamesPackage := by
  refine ⟨bare, nonempty, ?_, ?_⟩
  · rintro rfl
    exact (tidy ['.'] (by decide)).ne_self rfl
  · rintro rfl
    exact (tidy ['.', '.'] (by decide)).ne_parent rfl

end Specifier

namespace Host

variable {host : Host} {directory : Path} {specifier : Specifier} {extensions : List Text}

/-! ## A slash at the end of a directory -/

theorem directoryAt?_concat_slash (absolute : directory.isAbsolute)
    (noSlash : directory.getLast? ≠ some '/') :
    host.directoryAt? (directory ++ ['/']) extensions =
      host.directoryAt? directory extensions := by
  have nonempty : directory ≠ [] := by
    rintro rfl
    contradiction
  have sameJoin : ∀ path, Path.join (directory ++ ['/']) path = directory.join path :=
    Path.join_concat_slash nonempty noSlash
  have sameMain : host.packageMain? (directory ++ ['/']) = host.packageMain? directory := by
    rw [packageMain?, sameJoin, packageMain?]
  have sameTarget : ∀ main,
      Path.absoluteFrom (directory ++ ['/']) main = directory.absoluteFrom main := by
    intro main
    rw [Path.absoluteFrom, sameJoin, Path.absoluteFrom]
  rw [directoryAt?_eq_or absolute, directoryAt?_eq_or (Path.isAbsolute_append absolute ['/'])]
  simp only [mainOf?, indexOf?, sameMain, sameTarget, sameJoin]

/-! ## The way up -/

/-- From a directory with packages, a tidy specifier finds the same as its relative form. -/
theorem locate_inPackages (normal : directory.IsNormal) (nonempty : specifier ≠ [])
    (bare : specifier.kind = .bare) (tidy : specifier.IsTidy) :
    host.locate specifier.inPackages directory extensions =
      host.moduleAt? ((directory.join "node_modules".toList).join specifier) extensions
        specifier.isDirectoryOnly := by
  have relative := Specifier.isAbsolute_eq_false_of_bare bare
  have isName : Path.IsName "node_modules".toList := by decide
  rcases Path.IsNormal.iff_rooted.mp normal with ⟨names, all, rfl⟩
  have packageNames := Path.AreNames.concat.mpr ⟨all, isName⟩
  have leads : Path.absoluteFrom (Path.rooted names) specifier.inPackages =
      Path.rooted (names ++ ["node_modules".toList] ++ Path.directoryPieces specifier) := by
    have follows : Path.followAll (names ++ ["node_modules".toList]) (Path.pieces specifier) =
        names ++ ["node_modules".toList] ++ Path.directoryPieces specifier := by
      rcases Path.pieces_eq_directoryPieces_or specifier with same | withBlank
      · rw [same, Path.followAll_of_areNames tidy]
      · rw [withBlank, Path.followAll_append, Path.followAll_of_areNames tidy]
        rfl
    rw [Path.absoluteFrom_of_not_isAbsolute (Path.isAbsolute_rooted names) rfl,
      Path.names_rooted all, Specifier.pieces_inPackages, Path.followAll_cons,
      Path.follow_of_isBlank rfl, Path.followAll_cons, Path.follow_of_isName isName, follows]
  rw [locate_of_isRelative rfl, leads, Specifier.isDirectoryOnly_inPackages nonempty,
    Path.join_rooted all isName, Path.join_rooted_eq packageNames relative]
  rcases Path.pieces_eq_directoryPieces_or specifier with same | withBlank
  · rw [same]
  · -- The slash at the end is not a piece of the cleaned path, but only directories have one.
    have only : specifier.isDirectoryOnly = true := by
      rw [Specifier.isDirectoryOnly_iff_of_pieces nonempty withBlank]
      exact fun isName => isName.ne_nil rfl
    have someNames : names ++ ["node_modules".toList] ++ Path.directoryPieces specifier ≠ [] := by
      simp
    have noSlash := Path.getLast?_rooted_ne_slash (Path.AreNames.append.mpr ⟨packageNames, tidy⟩)
      someNames
    rw [withBlank, ← List.append_assoc, Path.rooted_concat, List.isEmpty_eq_false_iff.mpr someNames,
      only]
    simp only [moduleAt?, if_true, Bool.false_eq_true, if_false]
    rw [directoryAt?_concat_slash rfl noSlash]

/--
What a tidy specifier for a package finds is the first that its relative form finds from
the directory or one above it, the nearest first and the root last. Whether a directory has
packages at all makes no difference.
-/
theorem locate_eq_findSome?_above (host : Host) (normal : directory.IsNormal)
    (nonempty : specifier ≠ []) (bare : specifier.kind = .bare) (tidy : specifier.IsTidy)
    (extensions : List Text) :
    (host.locate specifier directory extensions =
      (directory.names.inits.reverse.map Path.rooted).findSome?
        (host.locate specifier.inPackages · extensions)) ∧
    ∀ above ∈ directory.names.inits.reverse.map Path.rooted,
      host.packageAt? specifier above extensions =
        host.moduleAt? ((above.join "node_modules".toList).join specifier) extensions
          specifier.isDirectoryOnly := by
  have ancestors := Path.ancestors_rooted (Path.areNames_names directory)
  rw [← normal.eq_rooted] at ancestors
  have unguarded : ∀ above ∈ directory.ancestors, host.packageAt? specifier above extensions =
      host.moduleAt? ((above.join "node_modules".toList).join specifier) extensions
        specifier.isDirectoryOnly := by
    intro above above_mem
    exact packageAt?_eq_moduleAt? (normal.of_mem_ancestors above_mem).absolute nonempty bare
  rw [← ancestors]
  refine ⟨?_, unguarded⟩
  rw [locate_of_namesPackage (tidy.namesPackage bare nonempty), ← List.head?_filterMap,
    ← List.head?_filterMap, List.filterMap_congr]
  intro above above_mem
  rw [unguarded above above_mem,
    locate_inPackages (normal.of_mem_ancestors above_mem) nonempty bare tidy]

/-- The directory itself has no packages, and the specifier ends in a slash. -/
theorem locate_eq_findSome?_above_in_missingMainHost :
    Path.IsNormal "/d".toList ∧ Specifier.IsTidy "p/".toList ∧
    missingMainHost.locate "p/".toList "/d".toList [".js".toList] =
      (["/d".toList, "/".toList]).findSome?
        (missingMainHost.locate "./node_modules/p/".toList · [".js".toList]) ∧
    missingMainHost.locate "p/".toList "/d".toList [".js".toList] =
      some "/node_modules/p/index.js".toList := by
  have normal : Path.IsNormal "/d".toList := ⟨by decide, by decide⟩
  have tidy : Specifier.IsTidy "p/".toList := by
    unfold Specifier.IsTidy Path.AreNames
    decide
  have above := locate_eq_findSome?_above missingMainHost normal (by decide) (by decide) tidy
    [".js".toList]
  exact ⟨normal, tidy, above.1, by decide +kernel⟩

end Host

end ImportResolution
