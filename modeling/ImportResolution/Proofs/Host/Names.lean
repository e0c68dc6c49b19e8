import ImportResolution.Host.Manifest
import ImportResolution.Proofs.FileTree.Names

/-!
# Names in a host

In a host everything stands under a name, and its working directory is reached by names
(`Host.HasNames`). Every change of a host keeps this, whether it succeeds or ends early, so it
holds of every host that a manifest describes (`Manifest.yields_host`).
-/

namespace ImportResolution

open ImportResolution.Path (IsName AreNames)

namespace Path

theorem getLast?_trimSlashes_ne (path : Path) : path.trimSlashes.getLast? ≠ some '/' := by
  intro slash
  rw [trimSlashes, List.getLast?_reverse] at slash
  have kept := List.head?_dropWhile_not (· == '/') path.reverse
  simp [slash] at kept

/-- The last piece of a path is a name unless it is one of the two special entries. -/
theorem isName_of_lastPiece? {path directory : Path} {name : Text}
    (last : path.lastPiece? = some (directory, name)) (notSelf : name ≠ ['.'])
    (notParent : name ≠ ['.', '.']) : IsName name := by
  have unslashed := getLast?_trimSlashes_ne path
  unfold lastPiece? at last
  split at last
  · contradiction
  · rename_i nonempty
    cases split : Text.splitAtLast? (· == '/') path.trimSlashes with
    | none =>
        rw [split] at last
        rcases Prod.mk.inj (Option.some.inj last) with ⟨-, rfl⟩
        rw [Text.splitAtLast?_eq_none_iff] at split
        exact ⟨nonempty, notSelf, notParent, fun slash_mem => by simpa using split '/' slash_mem⟩
    | some pieces =>
        rcases pieces with ⟨before, after⟩
        have same : after = name := by
          rw [split] at last
          cases before <;> simp_all
        subst same
        rcases Text.eq_append_of_splitAtLast? split with ⟨slash, whole, isSlash, noSlash⟩
        refine ⟨?_, notSelf, notParent, fun slash_mem => by simpa using noSlash '/' slash_mem⟩
        -- With nothing behind the last slash the path would still end in it.
        rintro rfl
        rw [whole, beq_iff_eq.mp isSlash] at unslashed
        simp at unslashed

end Path

namespace Host

variable {host : Host} {path : Path}

/-- Everything in a host stands under a name, and so does its working directory. -/
structure HasNames (host : Host) : Prop where
  tree : host.tree.HasNames
  directory : AreNames host.directory.location

namespace HasNames

theorem isName_of_mem_entries (named : host.HasNames) {entry : Text × Node}
    (entry_mem : entry ∈ host.entries path) : IsName entry.1 := by
  unfold entries at entry_mem
  split at entry_mem
  · exact FileTree.isName_of_mem_children named.tree entry_mem
  · simp at entry_mem

theorem areNames_of_find (named : host.HasNames) {lastLink : FileTree.LastLink}
    {place : FileTree.Place} (found : host.tree.find host.directory lastLink path = .ok place) :
    AreNames place.location :=
  FileTree.areNames_of_find named.tree named.directory found

theorem put (named : host.HasNames) {location : Location} (names : AreNames location)
    (node : Node) : HasNames { host with tree := host.tree.put location node } :=
  ⟨named.tree.put names node, named.directory⟩

theorem remove (named : host.HasNames) {location : Location} (names : AreNames location) :
    HasNames { host with tree := host.tree.remove location } :=
  ⟨named.tree.remove names, named.directory⟩

end HasNames

/-! ## One step -/

theorem yields_slot (named : host.HasNames) (path : Path) :
    Yields (fun slot => AreNames (slot.1 ++ [slot.2])) (host.slot path) := by
  unfold slot
  split
  · exact .error _
  · rename_i directory name last
    have located : Yields (fun place => AreNames place.location) (host.find directory) :=
      fun _ => named.areNames_of_find
    dsimp only
    split
    · exact .error _
    · split
      · exact .error _
      · refine located.bind ?_
        intro place names
        split
        · split
          · exact .error _
          · rename_i notSpecial
            simp only [Bool.or_eq_true, decide_eq_true_eq, not_or] at notSpecial
            have isName := Path.isName_of_lastPiece? last notSpecial.1 notSpecial.2
            split
            · exact .error _
            · split
              · exact .error _
              · exact .ok (AreNames.concat.mpr ⟨names, isName⟩)
        · exact .throw _

theorem yields_place (named : host.HasNames) (path : Path) (node : Node) :
    Yields HasNames (host.place path node) := by
  refine (yields_slot named path).bind ?_
  rintro ⟨location, name⟩ names
  dsimp only
  split
  · exact .throw _
  · split
    · exact .error _
    · exact .ok (named.put names node)

theorem yields_placeLink (named : host.HasNames) (path target : Path) :
    Yields HasNames (host.placeLink path target) := by
  unfold placeLink
  split
  · exact .error _
  · split
    · exact .error _
    · split
      · exact .error _
      · exact yields_place named path (.link target)

theorem yields_overwrite {content : Option Text} {links : Nat} (named : host.HasNames)
    (path : Path) : Yields HasNames (overwrite content links host path) := by
  induction links generalizing host path with
  | zero =>
      unfold overwrite
      split
      · rename_i found
        exact .ok (named.put (named.areNames_of_find found) _)
      · exact .error _
      · split
        · exact .error _
        · exact .error _
        · contradiction
      · exact .error _
  | succ links ih =>
      unfold overwrite
      split
      · rename_i found
        exact .ok (named.put (named.areNames_of_find found) _)
      · exact .error _
      · split
        · exact .error _
        · contradiction
        · rename_i location name fewer slotted
          cases fewer
          have names := yields_slot named path _ slotted
          have above : HasNames { host with directory := ⟨location, 0⟩ } :=
            ⟨named.tree, (AreNames.concat.mp names).1⟩
          split
          · exact .error _
          · split
            · rename_i target standing
              exact (ih above target).map fun changed changedNamed =>
                ⟨changedNamed.tree, named.directory⟩
            · exact .error _
            · exact .ok (named.put names _)
      · exact .error _

theorem yields_removeFile (named : host.HasNames) (path : Path) :
    Yields HasNames (host.removeFile path) := by
  intro removed removes
  rcases exists_of_bind_eq_ok removes with ⟨place, found, removes⟩
  split at removes
  · exact absurd removes throw_ne_ok
  · exact Except.ok.inj removes ▸ named.remove (named.areNames_of_find found)

theorem HasNames.discard (named : host.HasNames) {location : Location}
    (names : AreNames location) : (host.discard location).HasNames := by
  refine ⟨named.tree.remove names, ?_⟩
  unfold Host.discard WorkingDirectory.without
  dsimp only
  split
  · exact named.directory
  · exact named.directory

theorem HasNames.clear (named : host.HasNames) {location : Location} (names : AreNames location) :
    (host.clear location).HasNames := by
  have areNames : ∀ child ∈ host.tree.children location, IsName child.1 :=
    fun _ => FileTree.isName_of_mem_children named.tree
  unfold Host.clear
  generalize host.tree.children location = children at areNames
  induction children generalizing host with
  | nil => exact named
  | cons child children ih =>
      rw [List.forall_mem_cons] at areNames
      exact ih (named.discard (AreNames.concat.mpr ⟨names, areNames.1⟩)) areNames.2

theorem yields_removeSlot (named : host.HasNames) (path : Path) :
    Yields HasNames (host.removeSlot path) := by
  unfold removeSlot
  split
  · exact .ok named
  · exact .error _
  · rename_i location name slotted
    split
    · exact .ok named
    · exact .ok (named.discard (yields_slot named path _ slotted))
    · exact .error _

theorem yields_changeDirectory (named : host.HasNames) (path : Path) :
    Yields HasNames (host.changeDirectory path) := by
  intro changed changes
  rcases exists_of_bind_pure_eq_ok changes with ⟨entered, enters, rfl⟩
  exact ⟨named.tree, FileTree.areNames_of_enter named.tree named.directory enters⟩

/-! ## Several steps -/

/-- Whatever a change leaves behind, everything in it stands under a name. -/
def Changed.HasNames (changed : Changed) : Prop := changed.host.HasNames

namespace Changed

theorem hasNames_ofStep {step : Host → Except FileError Host} (named : host.HasNames)
    (kept : Yields Host.HasNames (step host)) : (ofStep host step).HasNames := by
  unfold ofStep
  split
  · rename_i stepped
    exact kept _ stepped
  · exact named

theorem HasNames.andThen {changed : Changed} {step : Host → Changed} (named : changed.HasNames)
    (kept : ∀ host : Host, host.HasNames → (step host).HasNames) :
    (changed.andThen step).HasNames := by
  unfold Changed.andThen
  split
  · exact named
  · exact kept changed.host named

theorem HasNames.toExcept {changed : Changed} (named : changed.HasNames) :
    Yields Host.HasNames changed.toExcept := by
  unfold Changed.toExcept
  split
  · exact .error _
  · exact .ok named

end Changed

theorem hasNames_ensureDirectory (path : Path) (host : Host) (named : host.HasNames) :
    (host.ensureDirectory path).HasNames := by
  unfold ensureDirectory
  dsimp only
  split
  · exact named
  · exact Changed.hasNames_ofStep named (yields_place named path .directory)

theorem hasNames_makeAlong (named : host.HasNames) (paths : List Path) :
    (host.makeAlong paths).HasNames := by
  induction paths with
  | nil => exact named
  | cons path above ih =>
      unfold makeAlong
      dsimp only
      split
      · exact named
      · split
        · exact ih.andThen (hasNames_ensureDirectory path)
        · exact hasNames_ensureDirectory path host named

theorem hasNames_makeParents (named : host.HasNames) (path : Path) :
    (host.makeParents path).HasNames := by
  unfold makeParents
  split
  · exact hasNames_makeAlong named _
  · exact named

theorem hasNames_writeFile (named : host.HasNames) (path : Path) (content : Option Text) :
    (host.writeFile path content).HasNames :=
  (hasNames_makeParents named path).andThen fun _ parentsNamed =>
    Changed.hasNames_ofStep parentsNamed (yields_overwrite parentsNamed path)

theorem hasNames_makeLink (named : host.HasNames) (path target : Path) :
    (host.makeLink path target).HasNames :=
  (hasNames_makeParents named path).andThen fun _ parentsNamed =>
    Changed.hasNames_ofStep parentsNamed (yields_placeLink parentsNamed path target)

theorem hasNames_removeDirectory (named : host.HasNames) (path : Path) :
    (host.removeDirectory path).HasNames := by
  unfold removeDirectory
  split
  · exact named
  · exact named
  · rename_i found
    exact named.remove (named.areNames_of_find found)
  · rename_i found
    have cleared := named.clear (named.areNames_of_find found)
    exact Changed.hasNames_ofStep cleared (yields_removeSlot cleared path)

end Host

/-- A manifest describes a host in which everything stands under a name. -/
theorem Manifest.yields_host (manifest : Manifest) : Yields Host.HasNames manifest.host := by
  have start : Host.HasNames ⟨.empty, ⟨[], 0⟩, manifest.valueOf? "NODE_ENV"⟩ :=
    ⟨.empty, AreNames.nil⟩
  have directoriesMade := Yields.foldlM start
    (fun _ path named => (Host.hasNames_makeAlong named path.ancestors).toExcept)
    manifest.directories
  refine directoriesMade.bind ?_
  intro host named
  have filesWritten := Yields.foldlM named
    (fun _ file named => (Host.hasNames_writeFile named file.1 (some file.2)).toExcept)
    manifest.files
  refine filesWritten.bind ?_
  intro host named
  have linksMade := Yields.foldlM named
    (fun _ link named => (Host.hasNames_makeLink named link.1 link.2).toExcept) manifest.links
  refine linksMade.bind ?_
  intro host named
  refine (Host.hasNames_makeAlong named manifest.workingDirectory.ancestors).toExcept.bind ?_
  intro host named
  exact Host.yields_changeDirectory named manifest.workingDirectory

end ImportResolution
