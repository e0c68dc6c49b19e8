import ImportResolution.Host.Basic
import ImportResolution.Proofs.Path.Names

/-!
# What lies on a walk

`FileTree.walkPieces_cons_iff` says in how many ways a walk passes a piece, and every
induction over walks goes through these. A walk that goes on after some pieces has found
a directory there, whatever links it has followed
(`FileTree.exists_directory_of_walk_append`). Hence what stands above a place that a path
names is a directory, and a regular file has nothing below.
-/

namespace ImportResolution

namespace Text

theorem byteLength_append (first second : Text) :
    byteLength (first ++ second) = byteLength first + byteLength second := by
  induction first with
  | nil => simp [byteLength]
  | cons char rest ih =>
      simp only [List.cons_append, byteLength, ih]
      omega

end Text

namespace Path

theorem rooted_isPrefixOf (names more : List Text) : rooted names <+: rooted (names ++ more) := by
  induction more generalizing names with
  | nil => simp
  | cons name more ih =>
      have further : rooted (names ++ [name]) <+: rooted (names ++ name :: more) := by
        simpa using ih (names ++ [name])
      apply List.IsPrefix.trans ?_ further
      rw [rooted_concat]
      split
      · rename_i none
        simp_all [rooted, Text.joinWith]
      · simp

end Path

namespace FileTree

variable {tree : FileTree}

/-! ## One piece of a walk -/

/-- A piece by which a walk descends. -/
structure IsEntryName (piece : Text) : Prop where
  not_blank : ¬Path.isBlank piece
  ne_parent : piece ≠ ['.', '.']
  short : ¬piece.byteLength > maxNameLength

/-- Where the walk through the target of a link starts when the link stands at `location`. -/
def linkStart (location : Location) (target : Path) : Location :=
  if target.isAbsolute then [] else location

/-- How a walk that arrives at `place` has dealt with the first of its pieces. -/
inductive Passes (tree : FileTree) (lastLink : LastLink)
    (follow : Location → List Text → Except FileError Place) (location : Location)
    (piece : Text) (rest : List Text) (place : Place) : Prop
  | blank (isBlank : Path.isBlank piece)
      (onward : walkPieces tree lastLink follow location rest = .ok place)
  | parent (isParent : piece = ['.', '.'])
      (onward : walkPieces tree lastLink follow location.dropLast rest = .ok place)
  | directory (isName : IsEntryName piece)
      (standing : tree.node? (location ++ [piece]) = some .directory)
      (onward : walkPieces tree lastLink follow (location ++ [piece]) rest = .ok place)
  | file (isName : IsEntryName piece) (content : Option Text)
      (standing : tree.node? (location ++ [piece]) = some (.file content)) (last : rest = [])
      (here : place = ⟨location ++ [piece], .file content⟩)
  | keptLink (isName : IsEntryName piece) (target : Path)
      (standing : tree.node? (location ++ [piece]) = some (.link target)) (last : rest = [])
      (kept : lastLink = .kept) (here : place = ⟨location ++ [piece], .link target⟩)
  | followedLink (isName : IsEntryName piece) (target : Path)
      (standing : tree.node? (location ++ [piece]) = some (.link target))
      (followed : ¬(rest.isEmpty && decide (lastLink = .kept)))
      (onward : follow (linkStart location target) (target.pieces ++ rest) = .ok place)

/-- A walk arrives exactly when its first piece is passed in one of these ways. -/
theorem walkPieces_cons_iff {lastLink : LastLink}
    {follow : Location → List Text → Except FileError Place} {location : Location} {piece : Text}
    {rest : List Text} {place : Place} :
    walkPieces tree lastLink follow location (piece :: rest) = .ok place ↔
      Passes tree lastLink follow location piece rest place := by
  constructor
  · intro found
    rw [walkPieces] at found
    by_cases isBlank : Path.isBlank piece
    · rw [if_pos isBlank] at found
      exact .blank isBlank found
    · rw [if_neg isBlank] at found
      by_cases isParent : piece = ['.', '.']
      · rw [if_pos isParent] at found
        exact .parent isParent found
      · rw [if_neg isParent] at found
        by_cases tooLong : piece.byteLength > maxNameLength
        · simp [tooLong] at found
        · rw [if_neg tooLong] at found
          have isName : IsEntryName piece := ⟨isBlank, isParent, tooLong⟩
          cases standing : tree.node? (location ++ [piece]) with
          | none => simp [standing] at found
          | some node =>
              simp only [standing] at found
              cases node with
              | directory => exact .directory isName standing found
              | file content =>
                  dsimp only at found
                  split at found
                  · rename_i last
                    exact .file isName content standing (List.isEmpty_iff.mp last)
                      (Except.ok.inj found).symm
                  · contradiction
              | link target =>
                  dsimp only at found
                  split at found
                  · rename_i kept
                    rw [Bool.and_eq_true, decide_eq_true_eq, List.isEmpty_iff] at kept
                    exact .keptLink isName target standing kept.1 kept.2
                      (Except.ok.inj found).symm
                  · rename_i followed
                    refine .followedLink isName target standing followed ?_
                    rw [linkStart]
                    split at found <;> simp_all
  · intro passes
    rw [walkPieces]
    cases passes with
    | blank isBlank onward => rw [if_pos isBlank, onward]
    | parent isParent onward =>
        subst isParent
        rw [if_neg (by decide), if_pos rfl, onward]
    | directory isName standing onward =>
        rw [if_neg isName.not_blank, if_neg isName.ne_parent, if_neg isName.short]
        simp only [standing, onward]
    | file isName content standing last here =>
        rw [if_neg isName.not_blank, if_neg isName.ne_parent, if_neg isName.short]
        simp [standing, last, here]
    | keptLink isName target standing last kept here =>
        rw [if_neg isName.not_blank, if_neg isName.ne_parent, if_neg isName.short]
        simp [standing, last, kept, here]
    | followedLink isName target standing followed onward =>
        rw [if_neg isName.not_blank, if_neg isName.ne_parent, if_neg isName.short]
        simp only [standing]
        rw [if_neg followed, ← onward, linkStart]
        split <;> rfl

/-! ## The beginning of a walk -/

/-- One stretch of a walk between two links. -/
theorem exists_directory_of_walkPieces_append
    {follow : Location → List Text → Except FileError Place} {more : List Text} {place : Place}
    (nonempty : more ≠ [])
    (followed : ∀ location pieces, follow location (pieces ++ more) = .ok place →
      ∃ reached, follow location pieces = .ok ⟨reached, .directory⟩)
    (location : Location) (pieces : List Text)
    (found : walkPieces tree .followed follow location (pieces ++ more) = .ok place) :
    ∃ reached, walkPieces tree .followed follow location pieces = .ok ⟨reached, .directory⟩ := by
  induction pieces generalizing location with
  | nil => exact ⟨location, rfl⟩
  | cons piece pieces ih =>
      rw [List.cons_append, walkPieces_cons_iff] at found
      cases found with
      | blank isBlank onward =>
          rcases ih location onward with ⟨reached, walked⟩
          exact ⟨reached, walkPieces_cons_iff.mpr (.blank isBlank walked)⟩
      | parent isParent onward =>
          rcases ih location.dropLast onward with ⟨reached, walked⟩
          exact ⟨reached, walkPieces_cons_iff.mpr (.parent isParent walked)⟩
      | directory isName standing onward =>
          rcases ih (location ++ [piece]) onward with ⟨reached, walked⟩
          exact ⟨reached, walkPieces_cons_iff.mpr (.directory isName standing walked)⟩
      | file isName content standing last here => simp [nonempty] at last
      | keptLink isName target standing last kept here => contradiction
      | followedLink isName target standing follows onward =>
          -- What comes after the pieces stays behind those of the target.
          rw [← List.append_assoc] at onward
          rcases followed _ _ onward with ⟨reached, walked⟩
          exact ⟨reached, walkPieces_cons_iff.mpr
            (.followedLink isName target standing (by simp) walked)⟩

/--
A walk that goes on is at a directory. The induction is on the links that may still be
followed: a link puts its own pieces before those that are left, so what comes after
the pieces stays at the end.
-/
theorem exists_directory_of_walk_append {links : Nat} {location : Location}
    {pieces more : List Text} {place : Place} (nonempty : more ≠ [])
    (found : walk tree .followed links location (pieces ++ more) = .ok place) :
    ∃ reached, walk tree .followed links location pieces = .ok ⟨reached, .directory⟩ := by
  induction links generalizing location pieces with
  | zero =>
      exact exists_directory_of_walkPieces_append nonempty (by simp) location pieces found
  | succ links ih =>
      exact exists_directory_of_walkPieces_append nonempty (fun _ _ => ih) location pieces found

/-- One stretch of a walk to a directory, with a blank piece at its end. -/
theorem walkPieces_concat_blank {follow : Location → List Text → Except FileError Place}
    {reached : Location}
    (followed : ∀ location pieces, follow location pieces = .ok ⟨reached, .directory⟩ →
      follow location (pieces ++ [[]]) = .ok ⟨reached, .directory⟩)
    (location : Location) (pieces : List Text)
    (found : walkPieces tree .followed follow location pieces = .ok ⟨reached, .directory⟩) :
    walkPieces tree .followed follow location (pieces ++ [[]]) = .ok ⟨reached, .directory⟩ := by
  induction pieces generalizing location with
  | nil => exact found
  | cons piece pieces ih =>
      rw [List.cons_append, walkPieces_cons_iff]
      cases walkPieces_cons_iff.mp found with
      | blank isBlank onward => exact .blank isBlank (ih location onward)
      | parent isParent onward => exact .parent isParent (ih location.dropLast onward)
      | directory isName standing onward =>
          exact .directory isName standing (ih (location ++ [piece]) onward)
      | file isName content standing last here => simp at here
      | keptLink isName target standing last kept here => contradiction
      | followedLink isName target standing follows onward =>
          have walked := followed _ _ onward
          rw [List.append_assoc] at walked
          exact .followedLink isName target standing (by simp) walked

/-- A blank piece after a walk to a directory stays there. -/
theorem walk_concat_blank {links : Nat} {location reached : Location} {pieces : List Text}
    (found : walk tree .followed links location pieces = .ok ⟨reached, .directory⟩) :
    walk tree .followed links location (pieces ++ [[]]) = .ok ⟨reached, .directory⟩ := by
  induction links generalizing location pieces with
  | zero => exact walkPieces_concat_blank (by simp) location pieces found
  | succ links ih => exact walkPieces_concat_blank (fun _ _ => ih) location pieces found

end FileTree

namespace Host

variable {host : Host}

theorem find_eq_ok_iff {path : Path} {place : FileTree.Place} (absolute : path.isAbsolute) :
    host.find path = .ok place ↔
      '\x00' ∉ path ∧ path.byteLength < FileTree.maxPathLength ∧
        host.tree.walk .followed FileTree.maxLinks [] path.pieces = .ok place := by
  rcases Path.isAbsolute_iff.mp absolute with ⟨body, rfl⟩
  unfold find FileTree.find
  by_cases nul : '\x00' ∈ '/' :: body
  · simp [nul]
  · by_cases long : Text.byteLength ('/' :: body) ≥ FileTree.maxPathLength
    · have notShort : ¬Text.byteLength ('/' :: body) < FileTree.maxPathLength := by omega
      simp [nul, long, notShort]
    · have short : Text.byteLength ('/' :: body) < FileTree.maxPathLength := by omega
      simp [nul, long, short, absolute]

/-- Every directory above a place that can be found is there. -/
theorem isDirectory_of_find_below {names more : List Text} {place : FileTree.Place}
    (all : Path.AreNames (names ++ more)) (nonempty : more ≠ [])
    (found : host.find (Path.rooted (names ++ more)) = .ok place) :
    host.isDirectory (Path.rooted names) = true := by
  rcases (find_eq_ok_iff rfl).mp found with ⟨noNul, short, walked⟩
  rcases Path.rooted_isPrefixOf names more with ⟨rest, whole⟩
  have allNonempty : (names ++ more).isEmpty = false := by simp [nonempty]
  have onPieces : host.tree.walk .followed FileTree.maxLinks [] (([] :: names) ++ more) =
      .ok place := by
    simpa [Path.pieces_rooted all, allNonempty] using walked
  rcases FileTree.exists_directory_of_walk_append nonempty onPieces with ⟨reached, atDirectory⟩
  have reachedAbove : host.tree.walk .followed FileTree.maxLinks [] (Path.rooted names).pieces =
      .ok ⟨reached, .directory⟩ := by
    rw [Path.pieces_rooted (Path.AreNames.append.mp all).1]
    cases names with
    | nil => exact atDirectory
    | cons name others => exact atDirectory
  have above : host.find (Path.rooted names) = .ok ⟨reached, .directory⟩ := by
    rw [find_eq_ok_iff rfl]
    rw [← whole, List.mem_append, not_or] at noNul
    rw [← whole, Text.byteLength_append] at short
    exact ⟨noNul.1, by omega, reachedAbove⟩
  simp [isDirectory, above]

/-- What is found below a path as written shows that the path names a directory. -/
theorem isDirectory_of_find_join {base path : Path} {place : FileTree.Place}
    (absolute : base.isAbsolute) (relative : path.isAbsolute = false)
    (found : host.find (base.join path) = .ok place) : host.isDirectory base = true := by
  rcases (find_eq_ok_iff (Path.isAbsolute_join absolute path)).mp found with
    ⟨noNul, short, walked⟩
  rw [Path.pieces_join base relative] at walked
  rcases FileTree.exists_directory_of_walk_append (Text.split_ne_nil '/' path) walked with
    ⟨reached, atDirectory⟩
  have reachedBase : host.tree.walk .followed FileTree.maxLinks [] base.pieces =
      .ok ⟨reached, .directory⟩ := by
    rcases Path.pieces_eq_directoryPieces_or base with same | withBlank
    · rw [same, atDirectory]
    · rw [withBlank, FileTree.walk_concat_blank atDirectory]
  have isBase : host.find base = .ok ⟨reached, .directory⟩ := by
    rcases Path.isPrefixOf_join base relative with ⟨rest, whole⟩
    rw [find_eq_ok_iff absolute]
    rw [← whole, List.mem_append, not_or] at noNul
    rw [← whole, Text.byteLength_append] at short
    exact ⟨noNul.1, by omega, reachedBase⟩
  simp [isDirectory, isBase]

theorem ne_root_of_isFile {path : Path} (file : host.isFile path) : path ≠ ['/'] := by
  rintro rfl
  have isRoot : host.isFile ['/'] = false := rfl
  simp [isRoot] at file

theorem isDirectory_eq_false_of_isFile {path : Path} (file : host.isFile path) :
    host.isDirectory path = false := by
  unfold isFile at file
  unfold isDirectory
  split at file
  · rename_i found
    rw [found]
  · simp at file

/-- A regular file does not lie on the way to a directory. -/
theorem not_prefix_of_isFile {file directory : List Text} (directoryNames : Path.AreNames directory)
    (isFile : host.isFile (Path.rooted file))
    (isDirectory : host.isDirectory (Path.rooted directory)) :
    ¬file <+: directory := by
  rintro ⟨more, rfl⟩
  have notDirectory := isDirectory_eq_false_of_isFile isFile
  by_cases none : more = []
  · simp [none, notDirectory] at isDirectory
  · unfold Host.isDirectory at isDirectory
    split at isDirectory
    · rename_i found
      rw [isDirectory_of_find_below directoryNames none found] at notDirectory
      simp at notDirectory
    · simp at isDirectory

/-- A regular file has a name, and it does not lie on the way to a directory. -/
theorem exists_rooted_concat_of_isFile {found importing : Path} (foundNormal : found.IsNormal)
    (isFile : host.isFile found) (importingNormal : importing.IsNormal)
    (isDirectory : host.isDirectory importing) :
    ∃ directory name, found = Path.rooted (directory ++ [name]) ∧
      Path.AreNames (directory ++ [name]) ∧ ¬directory ++ [name] <+: importing.names := by
  rcases Path.IsNormal.iff_rooted.mp foundNormal with ⟨names, all, rfl⟩
  have below : ¬names <+: importing.names := by
    apply not_prefix_of_isFile (Path.areNames_names importing) isFile
    rw [← importingNormal.eq_rooted]
    exact isDirectory
  rcases List.eq_nil_or_concat' names with rfl | ⟨directory, name, rfl⟩
  · exact absurd List.nil_prefix below
  · exact ⟨directory, name, rfl, all, below⟩

end Host

end ImportResolution
