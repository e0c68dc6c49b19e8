import ImportResolution.Proofs.Resolution.Chain
import ImportResolution.Proofs.Resolution.Importer

/-!
# Relative targets of aliases

A relative target is taken from the working directory of the options, and the result
names the same path from the importing file (`Options.resolution_of_relative_target`). Both
are looked up at that path, so they can differ in one respect: whether a file may stand
there or only a directory. The target says so by its ending, but cleaning removes that
ending, and the result asks for a directory alone exactly when the importing file lies
below that path (`Specifier.locate_rewritten`). `Host.locate_aliased_iff` draws the
consequence.
-/

namespace ImportResolution

namespace Specifier

variable {host : Host} {cwd file : Path} {target : Specifier}

/-- The way to a place asks for a directory alone exactly when it only goes up. -/
theorem isDirectoryOnly_way {start names : List Text} (all : Path.AreNames names) :
    isDirectoryOnly (asRelative (Text.joinWith '/' (Path.way start names))) = true ↔
      names <+: start := by
  by_cases above : names <+: start
  · simp only [above, iff_true]
    rcases Path.exists_way_eq_replicate above with ⟨count, wayEq⟩
    rw [wayEq]
    cases count with
    | zero => decide
    | succ count =>
        rw [List.replicate_succ', isDirectoryOnly_asRelative _ (by simp)]
        exact fun isName => isName.ne_parent rfl
  · rcases List.eq_nil_or_concat' names with rfl | ⟨directory, name, rfl⟩
    · exact absurd List.nil_prefix above
    · rcases Path.exists_way_concat all above with ⟨before, wayEq, -⟩
      have isName := (Path.AreNames.concat.mp all).2
      rw [wayEq, isDirectoryOnly_asRelative before isName.no_slash]
      simp [isName, above]

/-- The specifier that names from a directory what a target names from `cwd`. -/
def renamed (cwd directory target : Path) : Specifier :=
  asRelative (withSlashes (directory.relativeTo (cwd.absoluteFrom target)))

/-- What is written for a target leads where the target leads. -/
theorem absoluteFrom_renamed (cwdAbsolute : cwd.isAbsolute) (fileNormal : file.IsNormal)
    (noBackslash : '\\' ∉ cwd.absoluteFrom target) :
    file.parentOrSelf.absoluteFrom (renamed cwd file.parentOrSelf target) =
      cwd.absoluteFrom target := by
  have all := Path.areNames_names (cwd.absoluteFrom target)
  have leads := (Path.isNormal_absoluteFrom cwdAbsolute target).eq_rooted
  rw [leads] at noBackslash
  have written : renamed cwd file.parentOrSelf target = asRelative (Text.joinWith '/'
      (Path.way file.parentOrSelf.names (cwd.absoluteFrom target).names)) :=
    congrArg asRelative (wayFromImporter_eq_joinWith fileNormal all leads noBackslash)
  have noSlash : ∀ step ∈ Path.way file.parentOrSelf.names (cwd.absoluteFrom target).names,
      '/' ∉ step := fun step step_mem => (Path.isStep_of_mem_way all step_mem).2
  rw [written, absoluteFrom_asRelative fileNormal.parentOrSelf.absolute,
    Path.followAll_pieces_joinWith noSlash, Path.followAll_way all, ← leads]

/-- What is written for a target is looked up at the path of the target. -/
theorem locate_rewritten (extensions : List Text) (cwdAbsolute : cwd.isAbsolute)
    (fileNormal : file.IsNormal) (noBackslash : '\\' ∉ cwd.absoluteFrom target) :
    host.locate (asRelative (wayFromImporter cwd file target)) file.parentOrSelf extensions =
      host.moduleAt? (cwd.absoluteFrom target) extensions
        (decide ((cwd.absoluteFrom target).names <+: file.parentOrSelf.names)) := by
  have targetNormal := Path.isNormal_absoluteFrom cwdAbsolute target
  have all := Path.areNames_names (cwd.absoluteFrom target)
  have leads := targetNormal.eq_rooted
  rw [leads] at noBackslash
  have directoryOnly : isDirectoryOnly (asRelative (Text.joinWith '/'
      (Path.way file.parentOrSelf.names (cwd.absoluteFrom target).names))) =
      decide ((cwd.absoluteFrom target).names <+: file.parentOrSelf.names) := by
    rw [Bool.eq_iff_iff, isDirectoryOnly_way all, decide_eq_true_iff]
  have sameWay : asRelative (wayFromImporter cwd file target) =
      renamed cwd file.parentOrSelf target := rfl
  rw [Host.locate_of_isRelative (isRelative_asRelative _), sameWay,
    absoluteFrom_renamed cwdAbsolute fileNormal (leads ▸ noBackslash), ← sameWay,
    wayFromImporter_eq_joinWith fileNormal all leads noBackslash, directoryOnly]

end Specifier

namespace Host

variable {host : Host} {options : Options} {file path : Path} {specifier : Specifier}
  {extensions : List Text}

/-- Leaving out the file changes nothing when there is none or the directory leads to it. -/
theorem moduleAt?_eq_iff {first second : Bool} :
    host.moduleAt? path extensions first = host.moduleAt? path extensions second ↔
      first = second ∨ host.fileAt? path extensions = none ∨
        host.fileAt? path extensions = host.directoryAt? path extensions := by
  cases file : host.fileAt? path extensions with
  | none => cases first <;> cases second <;> simp [moduleAt?, file]
  | some found => cases first <;> cases second <;> simp [moduleAt?, file, eq_comm]

/--
What an alias has made of a specifier finds from the importing file what the target
finds from the working directory, exactly when the target asks for a directory alone
just in case the importing file lies below it, or when trying a file there makes no
difference.
-/
theorem locate_aliased_iff {target : Text} (cwdAbsolute : options.cwd.isAbsolute)
    (fileNormal : file.IsNormal) (notRelative : specifier.isRelative = false)
    (first : options.IsFirstTarget specifier target) (relative : Specifier.isRelative target)
    (noBackslash : '\\' ∉ options.cwd.absoluteFrom target) :
    ∃ result, (host.resolveWith options specifier file).resolution = .resolved result .aliased ∧
      (host.locate result file.parentOrSelf options.extensions =
          host.locate target options.cwd options.extensions ↔
        ((options.cwd.absoluteFrom target).names <+: file.parentOrSelf.names ↔
            Specifier.isDirectoryOnly target = true) ∨
          host.fileAt? (options.cwd.absoluteFrom target) options.extensions = none ∨
          host.fileAt? (options.cwd.absoluteFrom target) options.extensions =
            host.directoryAt? (options.cwd.absoluteFrom target) options.extensions) := by
  have nonempty : target ≠ [] := by
    rintro rfl
    simp [Specifier.isRelative] at relative
  refine ⟨Specifier.asRelative (Specifier.wayFromImporter options.cwd file target), ?_, ?_⟩
  · rw [resolveWith, Options.resolve_of_target notRelative first nonempty, Options.rewritten,
      if_pos relative, Path.absoluteFrom_of_isNormal host.importBase fileNormal]
  · rw [Specifier.locate_rewritten options.extensions cwdAbsolute fileNormal noBackslash,
      locate_of_isRelative relative, moduleAt?_eq_iff, Bool.eq_iff_iff, decide_eq_true_iff]

/-- A file and a directory that differ only in the extension, and a directory beside them. -/
def siblingHost : Host where
  tree := ⟨[("u.js".toList, .file (some [])),
    ("u".toList, .directory [("index.js".toList, .file (some []))]),
    ("d".toList, .directory [])]⟩
  directory := ⟨[], 0⟩
  nodeEnv := none

/-- One alias rule, which makes `target` of every specifier that contains `x`. -/
def aliasOptions (target : Text) : Options where
  cwd := "/".toList
  extensions := [".js".toList]
  aliases := [⟨⟨"x".toList, #[.record 0, .take [('x'.toNat, 'x'.toNat)], .record 1], []⟩,
    .function fun _ => target⟩]

theorem isFirstTarget_aliasOptions (target : Text) :
    (aliasOptions target).IsFirstTarget "x".toList target :=
  ⟨[], _, [], rfl, rfl, by simp⟩

theorem locate_aliased_in_siblingHost :
    ∃ result, (siblingHost.resolveWith (aliasOptions "./u".toList) "x".toList
        "/d/f".toList).resolution = .resolved result .aliased ∧
      siblingHost.locate result (Path.parentOrSelf "/d/f".toList) [".js".toList] =
        siblingHost.locate "./u".toList "/".toList [".js".toList] := by
  have fileNormal : Path.IsNormal "/d/f".toList := ⟨by decide, by decide⟩
  rcases locate_aliased_iff (by decide) fileNormal rfl (isFirstTarget_aliasOptions "./u".toList)
    rfl (by decide) with ⟨result, resolved, same⟩
  exact ⟨result, resolved, same.mpr (Or.inl (by decide))⟩

/-- A target that asks for a directory alone may become a specifier that finds a file. -/
theorem not_forall_locate_aliased :
    ¬∀ (host : Host) (options : Options) (file : Path) (specifier result : Specifier)
        (target : Text),
      options.cwd.isAbsolute → file.IsNormal → host.isDirectory file.parentOrSelf →
      specifier.isRelative = false → options.IsFirstTarget specifier target →
      Specifier.isRelative target → '\\' ∉ options.cwd.absoluteFrom target →
      (host.resolveWith options specifier file).resolution.specifier? = some result →
      host.locate result file.parentOrSelf options.extensions =
        host.locate target options.cwd options.extensions := by
  intro always
  have resolved : (siblingHost.resolveWith (aliasOptions "./u/".toList) "x".toList
      "/d/f".toList).resolution.specifier? = some "../u".toList := by
    rw [resolveWith, Options.resolve_of_target rfl (isFirstTarget_aliasOptions "./u/".toList)
      (by decide)]
    decide
  have same := always siblingHost (aliasOptions "./u/".toList) "/d/f".toList "x".toList
    "../u".toList "./u/".toList (by decide) ⟨by decide, by decide⟩ (by decide) rfl
    (isFirstTarget_aliasOptions "./u/".toList) rfl (by decide) resolved
  revert same
  decide

end Host

namespace Options

variable {options : Options} {file : Path} {specifier : Specifier} {target : Text}

/--
The answer for a relative target names from the importing file the same path as the target
from the working directory of the options. It depends on these two directories and on the
target alone.
-/
theorem resolution_of_relative_target (locator : Locator) (current : Path)
    (cwdAbsolute : options.cwd.isAbsolute) (fileNormal : file.IsNormal)
    (notRelative : specifier.isRelative = false)
    (first : options.IsFirstTarget specifier target) (relative : Specifier.isRelative target)
    (noBackslash : '\\' ∉ options.cwd.absoluteFrom target) :
    (options.resolve locator current specifier file).resolution =
        .resolved (Specifier.renamed options.cwd file.parentOrSelf target) .aliased ∧
      file.parentOrSelf.absoluteFrom (Specifier.renamed options.cwd file.parentOrSelf target) =
        options.cwd.absoluteFrom target := by
  have nonempty : target ≠ [] := by
    rintro rfl
    simp [Specifier.isRelative] at relative
  refine ⟨?_, Specifier.absoluteFrom_renamed cwdAbsolute fileNormal noBackslash⟩
  rw [resolve_of_target notRelative first nonempty, rewritten, if_pos relative,
    Path.absoluteFrom_of_isNormal current fileNormal]
  rfl

/-- The target is the directory above the one of the importing file. -/
theorem resolution_of_relative_target_above :
    Path.isAbsolute (Host.aliasOptions "./a".toList).cwd ∧ Path.IsNormal "/a/b/f".toList ∧
    (Host.aliasOptions "./a".toList).IsFirstTarget "x".toList "./a".toList ∧
    ((Host.aliasOptions "./a".toList).resolve (fun _ _ _ => none) [] "x".toList
      "/a/b/f".toList).resolution = .resolved "../".toList .aliased ∧
    Path.absoluteFrom "/a/b".toList "../".toList = "/a".toList := by
  have fileNormal : Path.IsNormal "/a/b/f".toList := ⟨by decide, by decide⟩
  have first := Host.isFirstTarget_aliasOptions "./a".toList
  have answer := resolution_of_relative_target (fun _ _ _ => none) [] rfl fileNormal rfl first rfl
    (by decide)
  exact ⟨rfl, fileNormal, first, answer.1, answer.2⟩

end Options

end ImportResolution
