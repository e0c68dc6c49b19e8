import ImportResolution.Proofs.Locator.Inside
import ImportResolution.Proofs.Options.WorkingDirectory

/-!
# The package of a file

Settings can name the package of the importing file as the directory that paths are taken
from. It is searched for from the directory of the file upwards (`Options.ClimbsTo`), and
`Options.cwd_isDeepestPackage` says what the search amounts to: of all the directories that
the file is in, at whatever depth, and that hold a package file, it is the deepest; if there
is none, paths are taken from the working directory.
-/

namespace ImportResolution

namespace Host

variable {host : Host} {directory : Path}

/-- In a directory, the name of a package file leads to a regular file, links followed. -/
def HoldsPackage (host : Host) (directory : Path) : Prop :=
  ∃ location content, host.find (directory.join packageFile) = .ok ⟨location, .file content⟩

theorem isFile_packageFile_iff :
    host.isFile (directory.join packageFile) = true ↔ host.HoldsPackage directory := by
  unfold isFile HoldsPackage
  split
  · rename_i location content leads
    simp [leads]
  · rename_i notFile
    simpa using fun location content leads => notFile location content leads

/-- A clean directory that holds a package, at a place or above it. -/
structure IsPackageAbove (host : Host) (place : List Text) (directory : Path) : Prop where
  normal : directory.IsNormal
  begins : directory.names <+: place
  holds : host.HoldsPackage directory

/-- A clean directory that holds a package and, at whatever depth, a file. -/
structure IsPackageOf (host : Host) (file directory : Path) : Prop where
  normal : directory.IsNormal
  inside : Path.IsInside directory file
  holds : host.HoldsPackage directory

end Host

namespace Options

open ImportResolution.Path (AreNames)

variable {host : Host} {settings : Settings} {file : Path} {options : Options}

/-! ## The search -/

/-- The search for a package file from a directory upwards, with the directory that it ends in. -/
inductive ClimbsTo (host : Host) : Path → Option Path → Prop
  | here {directory : Path} (holds : host.HoldsPackage directory) :
      ClimbsTo host directory (some directory)
  | up {directory above : Path} {found : Option Path} (lacks : ¬host.HoldsPackage directory)
      (parent : directory.parent? = some above) (climb : ClimbsTo host above found) :
      ClimbsTo host directory found
  | top {directory : Path} (lacks : ¬host.HoldsPackage directory)
      (noParent : directory.parent? = none) : ClimbsTo host directory none

theorem climbsTo_find? {start : Path} {climbed : List Path} (climb : Path.IsClimb start climbed) :
    ClimbsTo host start
      (climbed.find? fun directory => host.isFile (directory.join packageFile)) := by
  induction climb with
  | top noParent =>
      rw [List.find?_cons]
      split
      · rename_i holds
        exact .here (Host.isFile_packageFile_iff.mp holds)
      · rename_i lacks
        exact .top (fun holds => by simp [Host.isFile_packageFile_iff.mpr holds] at lacks) noParent
  | up parent climb ih =>
      rw [List.find?_cons]
      split
      · rename_i holds
        exact .here (Host.isFile_packageFile_iff.mp holds)
      · rename_i lacks
        exact .up (fun holds => by simp [Host.isFile_packageFile_iff.mpr holds] at lacks) parent ih

/-- From every path the search comes to an end, and it has one result. -/
theorem climbsTo_packageDirectory? (host : Host) (start : Path) :
    ClimbsTo host start (packageDirectory? host start) :=
  climbsTo_find? (Path.isClimb_ancestors start)

/-- The deepest of some directories, which all lie above one place; none if there is none. -/
def IsDeepest (among : Path → Prop) : Option Path → Prop
  | some directory => among directory ∧ ∀ other, among other → other.names <+: directory.names
  | none => ∀ other, ¬among other

theorem isDeepest_here {place : List Text} (all : AreNames place)
    (holds : host.HoldsPackage (Path.rooted place)) :
    IsDeepest (host.IsPackageAbove place) (some (Path.rooted place)) := by
  have names := Path.names_rooted all
  refine ⟨⟨Path.isNormal_rooted all, by rw [names], holds⟩, ?_⟩
  intro other isPackage
  rw [names]
  exact isPackage.begins

/-- A place that holds no package itself has the packages of the place above it. -/
theorem isPackageAbove_concat_iff {above : List Text} {name : Text} {directory : Path}
    (lacks : ¬host.HoldsPackage (Path.rooted (above ++ [name]))) :
    host.IsPackageAbove (above ++ [name]) directory ↔ host.IsPackageAbove above directory := by
  constructor
  · rintro ⟨normal, begins, holds⟩
    rcases List.prefix_concat_iff.mp begins with same | higher
    · rw [normal.eq_rooted, same] at holds
      exact absurd holds lacks
    · exact ⟨normal, higher, holds⟩
  · rintro ⟨normal, begins, holds⟩
    exact ⟨normal, begins.trans (List.prefix_append above [name]), holds⟩

/-- From a clean directory the search ends in the deepest package at this place or above it. -/
theorem ClimbsTo.isDeepest {place : List Text} {found : Option Path} (all : AreNames place)
    (climb : ClimbsTo host (Path.rooted place) found) :
    IsDeepest (host.IsPackageAbove place) found := by
  induction place using List.reverseRecOn with
  | nil =>
      cases climb with
      | here holds => exact isDeepest_here all holds
      | up lacks parent climb =>
          rw [Path.parent?_rooted_nil] at parent
          contradiction
      | top lacks noParent =>
          intro other isPackage
          have holds := isPackage.holds
          rw [isPackage.normal.eq_rooted, List.prefix_nil.mp isPackage.begins] at holds
          exact lacks holds
  | append_singleton above name ih =>
      cases climb with
      | here holds => exact isDeepest_here all holds
      | up lacks parent climb =>
          rw [Path.parent?_rooted_concat all, Option.some.injEq] at parent
          subst parent
          have same : host.IsPackageAbove (above ++ [name]) = host.IsPackageAbove above :=
            funext fun directory => propext (isPackageAbove_concat_iff lacks)
          rw [same]
          exact ih (AreNames.concat.mp all).1 climb
      | top lacks noParent =>
          rw [Path.parent?_rooted_concat all] at noParent
          contradiction

/-! ## The package of a file -/

theorem isPackageOf_rooted_concat_iff {above : List Text} {name : Text} {directory : Path}
    (all : AreNames (above ++ [name])) :
    host.IsPackageOf (Path.rooted (above ++ [name])) directory ↔
      host.IsPackageAbove above directory := by
  constructor
  · rintro ⟨normal, ⟨-, more, nonempty, goesOn⟩, holds⟩
    rw [Path.names_rooted all] at goesOn
    rcases List.eq_nil_or_concat' more with rfl | ⟨between, last, rfl⟩
    · exact absurd rfl nonempty
    · rw [← List.append_assoc] at goesOn
      have begins := List.append_inj_left' goesOn rfl
      exact ⟨normal, begins ▸ List.prefix_append directory.names between, holds⟩
  · rintro ⟨normal, ⟨between, goesOn⟩, holds⟩
    refine ⟨normal, ⟨Path.isNormal_rooted all, between ++ [name], by simp, ?_⟩, holds⟩
    rw [Path.names_rooted all, ← goesOn, List.append_assoc]

/-- What the search from the directory of a file finds is the deepest package of the file. -/
theorem isDeepest_bind_packageDirectory? (normal : file.IsNormal) :
    IsDeepest (host.IsPackageOf file) (file.parent?.bind (packageDirectory? host)) := by
  rcases Path.IsNormal.iff_rooted.mp normal with ⟨names, all, rfl⟩
  rcases List.eq_nil_or_concat' names with rfl | ⟨above, name, rfl⟩
  · rw [Path.parent?_rooted_nil]
    rintro directory ⟨-, ⟨-, more, nonempty, goesOn⟩, -⟩
    rw [Path.names_rooted all, eq_comm, List.append_eq_nil_iff] at goesOn
    exact nonempty goesOn.2
  · have same : host.IsPackageOf (Path.rooted (above ++ [name])) = host.IsPackageAbove above :=
      funext fun directory => propext (isPackageOf_rooted_concat_iff all)
    rw [Path.parent?_rooted_concat all, same]
    exact (climbsTo_packageDirectory? host (Path.rooted above)).isDeepest (AreNames.concat.mp all).1

theorem exists_cwd_of_ofSettings (normalized : ofSettings host settings file = .ok options) :
    ∃ current, host.currentDirectory = .ok current ∧
      options.cwd = baseDirectory host current (current.absoluteFrom file) settings.cwd := by
  rcases exists_of_ofSettings normalized with ⟨current, launched, taken⟩
  rcases exists_of_bind_eq_ok taken with ⟨roots, -, taken⟩
  rcases exists_of_bind_pure_eq_ok taken with ⟨rules, -, rfl⟩
  exact ⟨current, launched, rfl⟩

/--
With the package in place of a directory, paths of the settings are taken from the deepest
package of the importing file, and from the working directory if the file has none. The search
for the package comes to an end from every path.
-/
theorem cwd_isDeepestPackage (fromPackage : settings.cwd = some .packageJson)
    (normalized : ofSettings host settings file = .ok options) :
    ∃ current, host.currentDirectory = .ok current ∧
      ((∃ directory, host.IsPackageOf (current.absoluteFrom file) directory) →
        host.IsPackageOf (current.absoluteFrom file) options.cwd ∧
        ∀ other, host.IsPackageOf (current.absoluteFrom file) other →
          other.names <+: options.cwd.names) ∧
      ((∀ directory, ¬host.IsPackageOf (current.absoluteFrom file) directory) →
        options.cwd = current) ∧
      ∀ start, ClimbsTo host start (packageDirectory? host start) := by
  rcases exists_cwd_of_ofSettings normalized with ⟨current, launched, isBase⟩
  have fileNormal := Path.isNormal_absoluteFrom (Host.isAbsolute_of_currentDirectory launched) file
  have deepest : IsDeepest (host.IsPackageOf (current.absoluteFrom file)) _ :=
    isDeepest_bind_packageDirectory? fileNormal
  rw [fromPackage, baseDirectory] at isBase
  refine ⟨current, launched, ?_, ?_, climbsTo_packageDirectory? host⟩
  · rintro ⟨directory, isPackage⟩
    cases found : (current.absoluteFrom file).parent?.bind (packageDirectory? host) with
    | none =>
        rw [found] at deepest
        exact absurd isPackage (deepest directory)
    | some nearest =>
        rw [found] at deepest isBase
        rw [isBase]
        exact deepest
  · intro noPackage
    cases found : (current.absoluteFrom file).parent?.bind (packageDirectory? host) with
    | none => rw [isBase, found, Option.getD_none]
    | some nearest =>
        rw [found] at deepest
        exact absurd deepest.1 (noPackage nearest)

/--
A host in which the package file of the working directory is a directory and that of another
one a link to the package file of the root.
-/
def linkedPackageHost : Host where
  tree := ⟨[("package.json".toList, .file (some [])),
    ("d".toList, .directory [("package.json".toList, .directory [])]),
    ("l".toList, .directory [("package.json".toList, .link "../package.json".toList)])]⟩
  directory := ⟨["d".toList], 0⟩
  nodeEnv := none

theorem cwd_isDeepestPackage_in_linkedPackageHost :
    ∃ options, ofSettings linkedPackageHost { cwd := some .packageJson } "../l/x/f".toList =
        .ok options ∧
      options.cwd = "/l".toList ∧
      linkedPackageHost.IsPackageOf "/l/x/f".toList options.cwd ∧
      ∀ other, linkedPackageHost.IsPackageOf "/l/x/f".toList other →
        other.names <+: options.cwd.names := by
  have launched : linkedPackageHost.currentDirectory = .ok "/d".toList := rfl
  have isFile : Path.absoluteFrom "/d".toList "../l/x/f".toList = "/l/x/f".toList := by decide
  have base : baseDirectory linkedPackageHost "/d".toList "/l/x/f".toList (some .packageJson) =
      "/l".toList := by decide +kernel
  have normalized : ofSettings linkedPackageHost { cwd := some .packageJson } "../l/x/f".toList =
      .ok { cwd := "/l".toList } := by
    rw [ofSettings_eq_fromBase launched, isFile, base]
    rfl
  have isPackage : linkedPackageHost.IsPackageOf "/l/x/f".toList "/l".toList := by
    refine ⟨⟨by decide, by decide⟩, ⟨⟨by decide, by decide⟩, ["x".toList, "f".toList], ?_⟩, ?_⟩
    · decide
    · exact ⟨["package.json".toList], some [], by decide +kernel⟩
  rcases cwd_isDeepestPackage rfl normalized with ⟨current, isCurrent, deepest, -⟩
  rw [launched, Except.ok.injEq] at isCurrent
  subst isCurrent
  rw [isFile] at deepest
  exact ⟨_, normalized, rfl, deepest ⟨_, isPackage⟩⟩

end Options

end ImportResolution
