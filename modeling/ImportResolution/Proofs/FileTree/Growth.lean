import ImportResolution.Host.Edit
import ImportResolution.Proofs.FileTree.Walk
import ImportResolution.Proofs.Outcome

/-!
# Trees that grow

A tree grows when things are put where nothing stood (`FileTree.GrowsTo`); new files, and
the directories made for them, are the usual case (`Host.Builds.growsTo`). A walk that has
arrived in a tree meets the same names and links in the larger one, so it arrives at the
same place there. A walk that has failed may arrive later.

Where there are no links, a walk along names arrives at the location that these names are
(`FileTree.node?_of_walk`). So what such a walk finds in the larger tree is found in the
smaller one too if it stands there (`FileTree.walk_of_stands`).
-/

namespace ImportResolution

namespace Branch

theorem lookup_assign_self (entries : List (Text × Branch)) (name : Text)
    (branch : Option Branch) : (assign entries name branch).lookup name = branch := by
  have others : (entries.filter fun entry => entry.1 != name).lookup name = none := by
    rw [List.lookup_eq_none_iff]
    intro entry entry_mem
    have different : (entry.1 != name) = true := (List.mem_filter.mp entry_mem).2
    rwa [bne_comm] at different
  cases branch with
  | none => simpa [assign] using others
  | some branch => simp [assign]

theorem lookup_assign_of_ne (entries : List (Text × Branch)) {name other : Text}
    (branch : Option Branch) (different : other ≠ name) :
    (assign entries name branch).lookup other = entries.lookup other := by
  have others : (entries.filter fun entry => entry.1 != name).lookup other =
      entries.lookup other := by
    induction entries with
    | nil => rfl
    | cons entry entries ih =>
        rcases entry with ⟨key, value⟩
        by_cases isName : key = name
        · subst isName
          have unequal : (other == key) = false := by simpa using different
          simp [List.lookup_cons, unequal, ih]
        · simp [List.lookup_cons, isName, ih]
  cases branch with
  | none => simpa [assign] using others
  | some branch =>
      have unequal : (other == name) = false := by simpa using different
      simpa [assign, List.lookup_cons, unequal] using others

/-- What stands below a branch stays there when something is put where nothing stood. -/
theorem exists_replace_of_free {branch : Branch} {location : Location} (value : Branch)
    (free : branch.below? location = none) :
    ∃ changed, replace (some value) location (some branch) = some changed ∧
      ∀ other node, (branch.below? other).map Branch.node = some node →
        (changed.below? other).map Branch.node = some node := by
  induction location generalizing branch with
  | nil => simp [below?] at free
  | cons name location ih =>
      cases branch with
      | file content => exact ⟨_, rfl, fun other node stands => stands⟩
      | link target => exact ⟨_, rfl, fun other node stands => stands⟩
      | directory entries =>
          refine ⟨_, rfl, ?_⟩
          intro other node stands
          cases other with
          | nil => simpa [below?, Branch.node] using stands
          | cons first rest =>
              simp only [below?, Branch.entries] at free stands ⊢
              by_cases same : first = name
              · subst same
                rw [lookup_assign_self]
                cases inside : entries.lookup first with
                | none => simp [inside] at stands
                | some inner =>
                    simp only [inside, Option.bind_some] at free stands
                    rcases ih free with ⟨changed, replaced, kept⟩
                    rw [replaced, Option.bind_some]
                    exact kept rest node stands
              · rw [lookup_assign_of_ne entries _ same]
                exact stands

theorem below?_append (branch : Branch) (above below : Location) :
    branch.below? (above ++ below) = (branch.below? above).bind (·.below? below) := by
  induction above generalizing branch with
  | nil => rfl
  | cons name above ih =>
      rw [List.cons_append, below?, below?]
      cases branch.entries.lookup name with
      | none => rfl
      | some inner => exact ih inner

theorem eq_nil_of_below?_ofNode {node standing : Node} {location : Location}
    (stands : ((ofNode node).below? location).map Branch.node = some standing) :
    location = [] ∧ standing = node := by
  cases location with
  | nil => cases node <;> exact ⟨rfl, (Option.some.inj stands).symm⟩
  | cons name rest => cases node <;> simp [ofNode, below?, entries] at stands

/-- What stands below a branch in which a node was put is that node, or stood there before. -/
theorem below?_of_replace {node standing : Node} {location other : Location}
    {start : Option Branch}
    (stands : ((replace (some (ofNode node)) location start).bind (·.below? other)).map
      Branch.node = some standing) :
    other = location ∧ standing = node ∨
      (start.bind (·.below? other)).map Branch.node = some standing := by
  induction location generalizing start other with
  | nil => exact Or.inl (eq_nil_of_below?_ofNode stands)
  | cons name location ih =>
      match start with
      | none => exact Or.inr stands
      | some (.file content) => exact Or.inr stands
      | some (.link target) => exact Or.inr stands
      | some (.directory entries) =>
          cases other with
          | nil => exact Or.inr stands
          | cons first rest =>
              simp only [replace, Option.bind_some, below?, Branch.entries] at stands ⊢
              by_cases same : first = name
              · subst same
                rw [lookup_assign_self] at stands
                rcases ih stands with ⟨rfl, isNode⟩ | before
                · exact Or.inl ⟨rfl, isNode⟩
                · exact Or.inr before
              · rw [lookup_assign_of_ne entries _ same] at stands
                exact Or.inr stands

end Branch

namespace FileTree

/-- What stands in a tree stands in the larger one at the same location. -/
def GrowsTo (tree larger : FileTree) : Prop :=
  ∀ location node, tree.node? location = some node → larger.node? location = some node

/-- No symbolic link stands anywhere in the tree. -/
def IsLinkFree (tree : FileTree) : Prop :=
  ∀ location target, tree.node? location ≠ some (.link target)

section Put

variable {tree : FileTree} {location : Location}

/-- Where nothing stood, what is put below the root leaves a root. -/
theorem replace_root_of_free (node : Node) (free : tree.node? location = none) :
    Branch.replace (some (.ofNode node)) location (some tree.root) =
      some (tree.put location node).root := by
  rw [node?, Option.map_eq_none_iff] at free
  rcases Branch.exists_replace_of_free (.ofNode node) free with ⟨changed, replaced, kept⟩
  have atRoot := kept [] .directory rfl
  cases changed with
  | file content => simp [Branch.below?, Branch.node] at atRoot
  | link target => simp [Branch.below?, Branch.node] at atRoot
  | directory entries =>
      rw [put, FileTree.replace, replaced]
      rfl

theorem growsTo_put (node : Node) (free : tree.node? location = none) :
    tree.GrowsTo (tree.put location node) := by
  have replacedRoot := replace_root_of_free node free
  rw [node?, Option.map_eq_none_iff] at free
  rcases Branch.exists_replace_of_free (.ofNode node) free with ⟨changed, replaced, kept⟩
  rw [replaced, Option.some.injEq] at replacedRoot
  intro other standing stands
  rw [node?, ← replacedRoot]
  exact kept other standing stands

theorem node?_of_put {node standing : Node} {other : Location} (free : tree.node? location = none)
    (stands : (tree.put location node).node? other = some standing) :
    other = location ∧ standing = node ∨ tree.node? other = some standing := by
  rw [node?, ← Option.bind_some (a := (tree.put location node).root) (f := (·.below? other)),
    ← replace_root_of_free node free] at stands
  exact Branch.below?_of_replace stands

end Put

/-- Directories lead to whatever stands in a tree. -/
theorem exists_node?_above {tree : FileTree} {above below : Location} {node : Node}
    (stands : tree.node? (above ++ below) = some node) :
    ∃ standing, tree.node? above = some standing := by
  rw [node?, Branch.below?_append, Option.map_eq_some_iff] at stands
  rcases stands with ⟨branch, reached, -⟩
  rcases Option.bind_eq_some_iff.mp reached with ⟨inner, isInner, -⟩
  exact ⟨inner.node, by rw [node?, isInner]; rfl⟩

section Walks

variable {tree larger : FileTree} {lastLink : LastLink}

/-- One stretch of a walk between two links, in a tree that has grown. -/
theorem walkPieces_of_growsTo {follow followLarger : Location → List Text → Except FileError Place}
    {place : Place} (grows : tree.GrowsTo larger)
    (followed : ∀ location pieces, follow location pieces = .ok place →
      followLarger location pieces = .ok place)
    (location : Location) (pieces : List Text)
    (found : walkPieces tree lastLink follow location pieces = .ok place) :
    walkPieces larger lastLink followLarger location pieces = .ok place := by
  induction pieces generalizing location with
  | nil => exact found
  | cons piece pieces ih =>
      apply walkPieces_cons_iff.mpr
      cases walkPieces_cons_iff.mp found with
      | blank isBlank onward => exact .blank isBlank (ih location onward)
      | parent isParent onward => exact .parent isParent (ih location.dropLast onward)
      | directory isName standing onward =>
          exact .directory isName (grows _ _ standing) (ih (location ++ [piece]) onward)
      | file isName content standing last here =>
          exact .file isName content (grows _ _ standing) last here
      | keptLink isName target standing last kept here =>
          exact .keptLink isName target (grows _ _ standing) last kept here
      | followedLink isName target standing follows onward =>
          exact .followedLink isName target (grows _ _ standing) follows (followed _ _ onward)

theorem walk_of_growsTo {links : Nat} {location : Location} {pieces : List Text} {place : Place}
    (grows : tree.GrowsTo larger)
    (found : walk tree lastLink links location pieces = .ok place) :
    walk larger lastLink links location pieces = .ok place := by
  induction links generalizing location pieces with
  | zero => exact walkPieces_of_growsTo grows (by simp) location pieces found
  | succ links ih => exact walkPieces_of_growsTo grows (fun _ _ => ih) location pieces found

end Walks

/-! ## Walks along names -/

section Names

variable {tree larger : FileTree} {lastLink : LastLink} {names : List Text} {place : Place}

/-- One stretch of a walk along names, which is the whole walk where there are no links. -/
theorem node?_of_walkPieces {follow : Location → List Text → Except FileError Place}
    {location : Location} (linkFree : tree.IsLinkFree) (all : Path.AreNames names)
    (start : tree.node? location = some .directory)
    (found : walkPieces tree lastLink follow location names = .ok place) :
    tree.node? (location ++ names) = some place.node := by
  induction names generalizing location with
  | nil =>
      rw [walkPieces, Except.ok.injEq] at found
      rw [List.append_nil, start, ← found]
  | cons name names ih =>
      rcases Path.AreNames.cons.mp all with ⟨isName, others⟩
      cases walkPieces_cons_iff.mp found with
      | blank isBlank onward => simp [isName.isBlank_eq_false] at isBlank
      | parent isParent onward => exact absurd isParent isName.ne_parent
      | directory isEntry standing onward =>
          have further := ih others standing onward
          rwa [List.append_assoc] at further
      | file isEntry content standing last here => rw [last, standing, here]
      | keptLink isEntry target standing last kept here => exact absurd standing (linkFree _ _)
      | followedLink isEntry target standing follows onward =>
          exact absurd standing (linkFree _ _)

theorem walkPieces_of_stands {follow other : Location → List Text → Except FileError Place}
    {location : Location} {standing : Node} (grows : tree.GrowsTo larger)
    (linkFree : larger.IsLinkFree) (all : Path.AreNames names)
    (stands : tree.node? (location ++ names) = some standing)
    (found : walkPieces larger lastLink follow location names = .ok place) :
    walkPieces tree lastLink other location names = .ok place := by
  induction names generalizing location with
  | nil => exact found
  | cons name names ih =>
      rcases Path.AreNames.cons.mp all with ⟨isName, others⟩
      rw [List.append_cons] at stands
      rcases exists_node?_above stands with ⟨node, isThere⟩
      have grown := grows _ _ isThere
      rw [walkPieces_cons_iff]
      cases walkPieces_cons_iff.mp found with
      | blank isBlank onward => simp [isName.isBlank_eq_false] at isBlank
      | parent isParent onward => exact absurd isParent isName.ne_parent
      | directory isEntry later onward =>
          rw [later, Option.some.injEq] at grown
          exact .directory isEntry (grown ▸ isThere) (ih others stands onward)
      | file isEntry content later last here =>
          rw [later, Option.some.injEq] at grown
          exact .file isEntry content (grown ▸ isThere) last here
      | keptLink isEntry target later last kept here => exact absurd later (linkFree _ _)
      | followedLink isEntry target later follows onward => exact absurd later (linkFree _ _)

theorem walk_pieces_rooted {links : Nat} (all : Path.AreNames names) :
    walk tree lastLink links [] (Path.rooted names).pieces = walk tree lastLink links [] names := by
  rw [Path.pieces_rooted all]
  cases names with
  | nil => cases links <;> rfl
  | cons name names => cases links <;> rfl

/-- Where there are no links, a walk along names arrives at what stands at these names. -/
theorem node?_of_walk {links : Nat} (linkFree : tree.IsLinkFree) (all : Path.AreNames names)
    (found : walk tree lastLink links [] names = .ok place) :
    tree.node? names = some place.node := by
  cases links with
  | zero => exact node?_of_walkPieces linkFree all rfl found
  | succ links => exact node?_of_walkPieces linkFree all rfl found

/-- Where there are no links, what a walk along names finds was found by it if it stood there. -/
theorem walk_of_stands {links : Nat} {standing : Node} (grows : tree.GrowsTo larger)
    (linkFree : larger.IsLinkFree) (all : Path.AreNames names)
    (stands : tree.node? names = some standing)
    (found : walk larger lastLink links [] names = .ok place) :
    walk tree lastLink links [] names = .ok place := by
  cases links with
  | zero => exact walkPieces_of_stands grows linkFree all stands found
  | succ links => exact walkPieces_of_stands grows linkFree all stands found

end Names

end FileTree

namespace Host

variable {host larger : Host} {path : Path}

theorem lastPiece?_of_slot {location : Location} {name : Text}
    (slotted : host.slot path = .ok (location, name)) :
    path.lastPiece?.map Prod.snd = some name := by
  unfold slot at slotted
  split at slotted
  · contradiction
  · rename_i directory last isLast
    dsimp only at slotted
    split at slotted
    · contradiction
    · split at slotted
      · contradiction
      · rcases exists_of_bind_eq_ok slotted with ⟨place, -, taken⟩
        split at taken
        · split at taken
          · contradiction
          · split at taken
            · contradiction
            · split at taken
              · contradiction
              · rw [isLast, ← (Prod.mk.inj (Except.ok.inj taken)).2]
                rfl
        · exact absurd taken throw_ne_ok

/-- Whatever is placed in a host is placed where nothing stood, under the last piece of a path. -/
theorem exists_put_of_place {node : Node} (placed : host.place path node = .ok larger) :
    ∃ location name, path.lastPiece?.map Prod.snd = some name ∧
      host.tree.node? (location ++ [name]) = none ∧
      larger.tree = host.tree.put (location ++ [name]) node := by
  rcases exists_of_bind_eq_ok placed with ⟨⟨location, name⟩, slotted, taken⟩
  refine ⟨location, name, lastPiece?_of_slot slotted, ?_⟩
  dsimp only at taken
  cases standing : host.tree.node? (location ++ [name]) with
  | some other =>
      rw [standing] at taken
      exact absurd taken throw_ne_ok
  | none =>
      rw [standing] at taken
      dsimp only at taken
      split at taken
      · contradiction
      · rw [← Except.ok.inj taken]
        exact ⟨rfl, rfl⟩

/-- Nodes placed by their paths, one after the other. -/
def placeAll (host : Host) (nodes : List (Path × Node)) : Except FileError Host :=
  nodes.foldlM (fun host entry => host.place entry.1 entry.2) host

/-- Regular files, and directories for them, are made in this order, each where nothing stood. -/
structure Builds (host : Host) (nodes : List (Path × Node)) (larger : Host) : Prop where
  no_links : ∀ entry ∈ nodes, ∀ target, entry.2 ≠ .link target
  placed : host.placeAll nodes = .ok larger

namespace Builds

variable {nodes : List (Path × Node)}

theorem exists_place {entry : Path × Node} (built : host.Builds (entry :: nodes) larger) :
    ∃ middle, host.place entry.1 entry.2 = .ok middle ∧ middle.Builds nodes larger := by
  have placed := built.placed
  rw [placeAll, List.foldlM_cons] at placed
  rcases exists_of_bind_eq_ok placed with ⟨middle, first, rest⟩
  exact ⟨middle, first, fun other other_mem => built.no_links other (by simp [other_mem]), rest⟩

theorem growsTo (built : host.Builds nodes larger) : host.tree.GrowsTo larger.tree := by
  induction nodes generalizing host with
  | nil =>
      rw [← Except.ok.inj built.placed]
      exact fun location node stands => stands
  | cons entry nodes ih =>
      rcases built.exists_place with ⟨middle, placed, rest⟩
      rcases exists_put_of_place placed with ⟨above, name, -, free, isPut⟩
      intro location standing stands
      apply ih rest
      rw [isPut]
      exact FileTree.growsTo_put entry.2 free location standing stands

/-- What is new is no link, and it stands under the last piece of one of the paths. -/
theorem node?_of_builds (built : host.Builds nodes larger) {location : Location} {standing : Node}
    (stands : larger.tree.node? location = some standing) :
    host.tree.node? location = some standing ∨
      (∀ target, standing ≠ .link target) ∧
        ∃ entry ∈ nodes, ∃ above name, location = above ++ [name] ∧
          entry.1.lastPiece?.map Prod.snd = some name := by
  induction nodes generalizing host with
  | nil =>
      rw [← Except.ok.inj built.placed] at stands
      exact Or.inl stands
  | cons entry nodes ih =>
      rcases built.exists_place with ⟨middle, placed, rest⟩
      rcases ih rest with before | ⟨noLink, other, other_mem, isNew⟩
      · rcases exists_put_of_place placed with ⟨above, name, last, free, isPut⟩
        rw [isPut] at before
        rcases FileTree.node?_of_put free before with ⟨rfl, rfl⟩ | before
        · exact Or.inr ⟨built.no_links entry (by simp), entry, by simp, above, name, rfl, last⟩
        · exact Or.inl before
      · exact Or.inr ⟨noLink, other, by simp [other_mem], isNew⟩

theorem isLinkFree (built : host.Builds nodes larger) (linkFree : host.tree.IsLinkFree) :
    larger.tree.IsLinkFree := by
  intro location target stands
  rcases built.node?_of_builds stands with before | ⟨noLink, -⟩
  · exact linkFree location target before
  · exact noLink target rfl

end Builds

/-! ## What a path names in a host that has grown -/

theorem find_of_growsTo {place : FileTree.Place} (grows : host.tree.GrowsTo larger.tree)
    (absolute : path.isAbsolute) (found : host.find path = .ok place) :
    larger.find path = .ok place := by
  rcases (find_eq_ok_iff absolute).mp found with ⟨noNul, short, walked⟩
  exact (find_eq_ok_iff absolute).mpr ⟨noNul, short, FileTree.walk_of_growsTo grows walked⟩

/-- Where there are no links, a clean path names what stands at its names. -/
theorem node?_of_find {names : List Text} {place : FileTree.Place}
    (linkFree : host.tree.IsLinkFree) (all : Path.AreNames names)
    (found : host.find (Path.rooted names) = .ok place) :
    host.tree.node? names = some place.node := by
  have walked := ((find_eq_ok_iff rfl).mp found).2.2
  rw [FileTree.walk_pieces_rooted all] at walked
  exact FileTree.node?_of_walk linkFree all walked

theorem find_of_stands {names : List Text} {place : FileTree.Place} {standing : Node}
    (grows : host.tree.GrowsTo larger.tree) (linkFree : larger.tree.IsLinkFree)
    (all : Path.AreNames names) (stands : host.tree.node? names = some standing)
    (found : larger.find (Path.rooted names) = .ok place) :
    host.find (Path.rooted names) = .ok place := by
  rcases (find_eq_ok_iff rfl).mp found with ⟨noNul, short, walked⟩
  rw [FileTree.walk_pieces_rooted all] at walked
  refine (find_eq_ok_iff rfl).mpr ⟨noNul, short, ?_⟩
  rw [FileTree.walk_pieces_rooted all]
  exact FileTree.walk_of_stands grows linkFree all stands walked

theorem readText_eq_ok_iff {content : Text} :
    host.readText path = .ok content ↔
      ∃ location, host.find path = .ok ⟨location, .file (some content)⟩ := by
  unfold readText
  split <;> simp_all

theorem readText_of_growsTo {content : Text} (grows : host.tree.GrowsTo larger.tree)
    (absolute : path.isAbsolute) (read : host.readText path = .ok content) :
    larger.readText path = .ok content := by
  rcases readText_eq_ok_iff.mp read with ⟨location, found⟩
  exact readText_eq_ok_iff.mpr ⟨location, find_of_growsTo grows absolute found⟩

theorem isFile_of_growsTo (grows : host.tree.GrowsTo larger.tree) (absolute : path.isAbsolute)
    (file : host.isFile path) : larger.isFile path = true := by
  unfold isFile at file ⊢
  split at file
  · rename_i found
    rw [find_of_growsTo grows absolute found]
  · contradiction

theorem isDirectory_of_growsTo (grows : host.tree.GrowsTo larger.tree)
    (absolute : path.isAbsolute) (directory : host.isDirectory path) :
    larger.isDirectory path = true := by
  unfold isDirectory at directory ⊢
  split at directory
  · rename_i found
    rw [find_of_growsTo grows absolute found]
  · contradiction

end Host

end ImportResolution
