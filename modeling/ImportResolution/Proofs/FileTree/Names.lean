import ImportResolution.Proofs.FileTree.Walk
import ImportResolution.Proofs.Outcome

/-!
# Names in a tree

In a file tree everything stands under a name: never under an empty text, `.`, `..` or
one with a slash (`FileTree.HasNames`). A tree keeps this when something is put under a
name or taken away. In such a tree a walk arrives at a list of names, whatever pieces and
links have led there (`FileTree.areNames_of_find`).
-/

namespace ImportResolution

open ImportResolution.Path (IsName AreNames)

namespace Branch

variable {branch inner : Branch} {entries : List (Text × Branch)} {location : Location}

theorem mem_of_lookup {name : Text} (found : entries.lookup name = some branch) :
    (name, branch) ∈ entries := by
  rcases List.lookup_eq_some_iff.mp found with ⟨before, after, rfl, -⟩
  simp

/-- Everything below a branch stands under a name. -/
inductive HasNames : Branch → Prop
  | file (content : Option Text) : HasNames (.file content)
  | link (target : Path) : HasNames (.link target)
  | directory {entries : List (Text × Branch)} (names : ∀ entry ∈ entries, IsName entry.1)
      (inside : ∀ entry ∈ entries, entry.2.HasNames) : HasNames (.directory entries)

namespace HasNames

theorem names (named : branch.HasNames) : ∀ entry ∈ branch.entries, IsName entry.1 := by
  cases named with
  | directory names inside => exact names
  | _ => simp [Branch.entries]

theorem inside (named : branch.HasNames) : ∀ entry ∈ branch.entries, entry.2.HasNames := by
  cases named with
  | directory names inside => exact inside
  | _ => simp [Branch.entries]

theorem ofNode (node : Node) : (Branch.ofNode node).HasNames := by
  cases node with
  | file content => exact .file content
  | directory => exact .directory (by simp) (by simp)
  | link target => exact .link target

/-- Whatever stands below a branch is found under names, and has names itself. -/
theorem of_below? (named : branch.HasNames) (stands : branch.below? location = some inner) :
    AreNames location ∧ inner.HasNames := by
  induction location generalizing branch with
  | nil =>
      rw [← Option.some.inj stands]
      exact ⟨AreNames.nil, named⟩
  | cons name location ih =>
      rcases Option.bind_eq_some_iff.mp stands with ⟨next, found, deeper⟩
      have entry_mem : (name, next) ∈ branch.entries := mem_of_lookup found
      rcases ih (named.inside _ entry_mem) deeper with ⟨names, innerNamed⟩
      exact ⟨AreNames.cons.mpr ⟨named.names _ entry_mem, names⟩, innerNamed⟩

end HasNames

theorem mem_assign {name : Text} {value : Option Branch} {entry : Text × Branch}
    (entry_mem : entry ∈ assign entries name value) :
    (entry.1 = name ∧ value = some entry.2) ∨ entry ∈ entries := by
  rcases List.mem_append.mp entry_mem with assigned | kept
  · cases value with
    | none => simp at assigned
    | some branch =>
        have same : entry = (name, branch) := by simpa using assigned
        exact Or.inl ⟨by rw [same], by rw [same]⟩
  · exact Or.inr (List.mem_of_mem_filter kept)

/-- A branch keeps its names when what comes to stand at a list of names has names. -/
theorem hasNames_of_replace {value start : Option Branch} (names : AreNames location)
    (valueNamed : ∀ branch ∈ value, branch.HasNames)
    (startNamed : ∀ branch ∈ start, branch.HasNames) :
    ∀ branch ∈ replace value location start, branch.HasNames := by
  induction location generalizing start with
  | nil => exact valueNamed
  | cons name location ih =>
      rcases AreNames.cons.mp names with ⟨isName, others⟩
      match start with
      | none => exact startNamed
      | some (.file content) => exact startNamed
      | some (.link target) => exact startNamed
      | some (.directory entries) =>
          have named := startNamed _ rfl
          have lookedUp : ∀ inner ∈ entries.lookup name, inner.HasNames :=
            fun inner found => named.inside _ (mem_of_lookup found)
          have replacedNamed := ih others lookedUp
          rintro branch ⟨⟩
          refine .directory ?_ ?_
          · intro entry entry_mem
            rcases mem_assign entry_mem with ⟨same, -⟩ | kept
            · exact same ▸ isName
            · exact named.names entry kept
          · intro entry entry_mem
            rcases mem_assign entry_mem with ⟨-, assigned⟩ | kept
            · exact replacedNamed entry.2 assigned
            · exact named.inside entry kept

end Branch

/-! ## Trees -/

namespace FileTree

variable {tree : FileTree} {location : Location} {place : Place} {lastLink : LastLink}

/-- Everything in a tree stands under a name. -/
def HasNames (tree : FileTree) : Prop := tree.root.HasNames

namespace HasNames

theorem empty : FileTree.empty.HasNames := .directory nofun nofun

theorem replace {value : Option Branch} (named : tree.HasNames) (names : AreNames location)
    (valueNamed : ∀ branch ∈ value, branch.HasNames) : (tree.replace location value).HasNames := by
  have rootNamed : ∀ branch ∈ some tree.root, branch.HasNames := by
    rintro branch ⟨⟩
    exact named
  have replacedNamed := Branch.hasNames_of_replace names valueNamed rootNamed
  unfold HasNames FileTree.replace
  cases replaced : Branch.replace value location (some tree.root) with
  | none => exact empty
  | some branch =>
      have branchNamed := replacedNamed branch replaced
      exact .directory branchNamed.names branchNamed.inside

theorem put (named : tree.HasNames) (names : AreNames location) (node : Node) :
    (tree.put location node).HasNames := by
  apply named.replace names
  rintro branch ⟨⟩
  exact .ofNode node

theorem remove (named : tree.HasNames) (names : AreNames location) :
    (tree.remove location).HasNames :=
  named.replace names (by simp)

end HasNames

theorem areNames_of_node? {node : Node} (named : tree.HasNames)
    (stands : tree.node? location = some node) : AreNames location := by
  rcases Option.map_eq_some_iff.mp stands with ⟨branch, found, -⟩
  exact (Branch.HasNames.of_below? named found).1

theorem isName_of_mem_children {child : Text × Node} (named : tree.HasNames)
    (child_mem : child ∈ tree.children location) : IsName child.1 := by
  unfold children at child_mem
  split at child_mem
  · rename_i branch found
    rcases List.mem_map.mp (List.mem_mergeSort.mp child_mem) with ⟨entry, entry_mem, rfl⟩
    exact (Branch.HasNames.of_below? named found).2.names entry entry_mem
  · simp at child_mem

/-! ## Where a walk arrives -/

/-- One stretch of a walk between two links. -/
theorem areNames_of_walkPieces {follow : Location → List Text → Except FileError Place}
    {pieces : List Text} (named : tree.HasNames)
    (followed : ∀ location pieces, AreNames location → follow location pieces = .ok place →
      AreNames place.location)
    (names : AreNames location)
    (found : walkPieces tree lastLink follow location pieces = .ok place) :
    AreNames place.location := by
  induction pieces generalizing location with
  | nil => exact Except.ok.inj found ▸ names
  | cons piece pieces ih =>
      cases walkPieces_cons_iff.mp found with
      | blank isBlank onward => exact ih names onward
      | parent isParent onward => exact ih names.dropLast onward
      | directory isName standing onward => exact ih (areNames_of_node? named standing) onward
      | file isName content standing last here => exact here ▸ areNames_of_node? named standing
      | keptLink isName target standing last kept here =>
          exact here ▸ areNames_of_node? named standing
      | followedLink isName target standing follows onward =>
          apply followed _ _ ?_ onward
          unfold linkStart
          split
          · exact AreNames.nil
          · exact names

theorem areNames_of_walk {links : Nat} {pieces : List Text} (named : tree.HasNames)
    (names : AreNames location) (found : walk tree lastLink links location pieces = .ok place) :
    AreNames place.location := by
  induction links generalizing location pieces with
  | zero => exact areNames_of_walkPieces named (by simp) names found
  | succ links ih => exact areNames_of_walkPieces named (fun _ _ => ih) names found

theorem areNames_climb {removed : Nat} {pieces : List Text} (names : AreNames location) :
    AreNames (WorkingDirectory.climb location removed pieces).1.location := by
  induction pieces generalizing location removed with
  | nil => cases removed <;> exact names
  | cons piece pieces ih =>
      cases removed with
      | zero => exact names
      | succ removed =>
          unfold WorkingDirectory.climb
          split
          · exact ih names
          · split
            · exact ih names.dropLast
            · exact names

theorem areNames_of_find {directory : WorkingDirectory} {path : Path} (named : tree.HasNames)
    (names : AreNames directory.location)
    (found : tree.find directory lastLink path = .ok place) : AreNames place.location := by
  have climbed : AreNames
      (WorkingDirectory.climb directory.location directory.removed path.pieces).1.location :=
    areNames_climb names
  unfold find at found
  split at found
  · contradiction
  · split at found
    · contradiction
    · split at found
      · contradiction
      · split at found
        · exact areNames_of_walk named AreNames.nil found
        · split at found
          · rename_i reached
            rw [reached] at climbed
            exact areNames_of_walk named climbed found
          · rename_i reached
            rw [reached] at climbed
            exact Except.ok.inj found ▸ climbed
          · contradiction

theorem areNames_of_enter {directory entered : WorkingDirectory} {path : Path}
    (named : tree.HasNames) (names : AreNames directory.location)
    (enters : tree.enter directory path = .ok entered) : AreNames entered.location := by
  rcases exists_of_bind_eq_ok enters with ⟨place, found, reached⟩
  have placeNames := areNames_of_find named names found
  cases node : place.node with
  | directory =>
      simp only [node] at reached
      split at reached
      · exact Except.ok.inj reached ▸ placeNames
      · exact Except.ok.inj reached ▸ placeNames
  | file content => simp [node, throw_ne_ok] at reached
  | link target => simp [node, throw_ne_ok] at reached

end FileTree

end ImportResolution
