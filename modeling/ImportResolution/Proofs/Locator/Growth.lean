import ImportResolution.Proofs.FileTree.Growth
import ImportResolution.Proofs.Locator.Guards
import ImportResolution.Proofs.Locator.Packages
import ImportResolution.Proofs.Path.LastPiece

/-!
# Looking up in a tree that has grown

New files may hide what was found before, and a directory that was made for them may open
a whole block of paths that had not been tried: an index, the main entry of a package, or the
packages of a directory above. Asking for a directory decides nothing, so these blocks were
searched before as well, and what is found in them first is new. The one exception is a main
entry that could not be read before (`Host.IsOpenedMain`), since it may lead out of its
directory to a file that was there.

With package files that read the same, such an entry can only be read at a path that is not
clean. A specifier for a package is put behind `node_modules` as it is written, so `new/../p`
reads the package file of `p` as soon as there is a directory `new`. For all other lookups
`Host.isSameOrNew_locate` says that what is found is what was found before or a new file.
-/

namespace ImportResolution

/-- A later answer is the earlier one, or one of those that may come in its place. -/
def IsSameOr (fresh : Path → Prop) (earlier later : Option Path) : Prop :=
  later = earlier ∨ ∃ found, later = some found ∧ fresh found

namespace IsSameOr

variable {fresh other : Path → Prop} {earlier later : Option Path}

theorem refl (answer : Option Path) : IsSameOr fresh answer answer :=
  Or.inl rfl

theorem mono (weaker : ∀ found, later = some found → fresh found → other found)
    (same : IsSameOr fresh earlier later) : IsSameOr other earlier later := by
  rcases same with same | ⟨found, isFound, isFresh⟩
  · exact Or.inl same
  · exact Or.inr ⟨found, isFound, weaker found isFound isFresh⟩

theorem or {nextEarlier nextLater : Option Path} (first : IsSameOr fresh earlier later)
    (second : IsSameOr fresh nextEarlier nextLater) :
    IsSameOr fresh (earlier.or nextEarlier) (later.or nextLater) := by
  rcases first with rfl | ⟨found, rfl, isFresh⟩
  · cases later with
    | none => exact second
    | some path => exact refl (some path)
  · exact Or.inr ⟨found, rfl, isFresh⟩

theorem findSome? {items : List Path} {earlier later : Path → Option Path}
    (each : ∀ item ∈ items, IsSameOr fresh (earlier item) (later item)) :
    IsSameOr fresh (items.findSome? earlier) (items.findSome? later) := by
  induction items with
  | nil => exact refl none
  | cons item items ih =>
      have startsWith : ∀ search : Path → Option Path,
          (item :: items).findSome? search = (search item).or (items.findSome? search) := by
        intro search
        rw [List.findSome?_cons]
        cases search item <;> rfl
      rw [startsWith, startsWith]
      apply or (each item (by simp))
      exact ih fun other other_mem => each other (by simp [other_mem])

end IsSameOr

namespace Host

/-- A path that names a regular file, and did not before. -/
structure IsNewFile (host larger : Host) (path : Path) : Prop where
  file : larger.isFile path = true
  no_file : host.isFile path = false

/-- A main entry leads to a file, in a directory where none could be read before. -/
structure IsOpenedMain (host larger : Host) (directory : Path) (extensions : List Text)
    (found : Path) : Prop where
  unread : host.packageMain? directory = none
  leads : larger.mainOf? directory extensions = some found

/-- In every clean directory, the package file is read alike, or cannot be read in either host. -/
def ReadsSamePackages (host larger : Host) : Prop :=
  ∀ directory : Path, directory.IsNormal →
    (larger.readText (directory.join packageFile)).toOption =
      (host.readText (directory.join packageFile)).toOption

variable {host larger : Host} {path directory : Path} {specifier : Specifier}

/-! ## The steps of the locator -/

section Grown

variable (grows : host.tree.GrowsTo larger.tree)
include grows

/-- The first file of a list is the first one that there was, unless a new one comes before. -/
theorem isSameOr_find? {paths : List Path} (absolute : ∀ path ∈ paths, path.isAbsolute) :
    IsSameOr (host.IsNewFile larger) (paths.find? host.isFile) (paths.find? larger.isFile) := by
  induction paths with
  | nil => exact .refl none
  | cons path paths ih =>
      rw [List.forall_mem_cons] at absolute
      cases isLater : larger.isFile path with
      | true =>
          cases isEarlier : host.isFile path with
          | true => simpa [isLater, isEarlier] using IsSameOr.refl (some path)
          | false => exact Or.inr ⟨path, by simp [isLater], isLater, isEarlier⟩
      | false =>
          have isEarlier : host.isFile path = false := by
            rw [Bool.eq_false_iff]
            intro file
            simp [isFile_of_growsTo grows absolute.1 file] at isLater
          simpa [isLater, isEarlier] using ih absolute.2

theorem isSameOr_fileAt? (absolute : path.isAbsolute) (extensions : List Text) :
    IsSameOr (host.IsNewFile larger) (host.fileAt? path extensions)
      (larger.fileAt? path extensions) := by
  apply isSameOr_find? grows
  intro candidate candidate_mem
  rcases mem_tried.mp candidate_mem with rfl | ⟨ending, -, rfl⟩
  · exact absolute
  · exact Path.isAbsolute_append absolute ending

theorem isSameOr_indexOf? (absolute : directory.isAbsolute) (extensions : List Text) :
    IsSameOr (host.IsNewFile larger) (host.indexOf? directory extensions)
      (larger.indexOf? directory extensions) := by
  apply isSameOr_find? grows
  intro candidate candidate_mem
  rcases List.mem_map.mp candidate_mem with ⟨ending, -, rfl⟩
  exact Path.isAbsolute_join absolute _

/-- A main entry that was read is read again. -/
theorem packageMain?_of_growsTo {main : Text} (absolute : directory.isAbsolute)
    (read : host.packageMain? directory = some main) :
    larger.packageMain? directory = some main := by
  unfold packageMain? at read ⊢
  cases content : host.readText (directory.join packageFile) with
  | error error => simp [content, Except.toOption] at read
  | ok text =>
      rw [readText_of_growsTo grows (Path.isAbsolute_join absolute packageFile) content]
      rwa [content] at read

theorem isSameOr_mainOf? (absolute : directory.isAbsolute) (extensions : List Text) :
    IsSameOr
      (fun found => host.IsNewFile larger found ∨
        host.IsOpenedMain larger directory extensions found)
      (host.mainOf? directory extensions) (larger.mainOf? directory extensions) := by
  cases read : host.packageMain? directory with
  | some main =>
      have targetAbsolute := Path.isAbsolute_absoluteFrom absolute main
      rw [mainOf?_eq_bind absolute, mainOf?_eq_bind absolute, read,
        packageMain?_of_growsTo grows absolute read]
      exact (IsSameOr.or (isSameOr_fileAt? grows targetAbsolute extensions)
        (isSameOr_indexOf? grows targetAbsolute extensions)).mono fun _ _ => Or.inl
  | none =>
      have nothing : host.mainOf? directory extensions = none := by
        rw [mainOf?, read]
        rfl
      cases leads : larger.mainOf? directory extensions with
      | none => exact Or.inl nothing.symm
      | some found => exact Or.inr ⟨found, rfl, Or.inr ⟨read, leads⟩⟩

theorem isSameOr_moduleAt? (absolute : path.isAbsolute) (extensions : List Text)
    (directoryOnly : Bool) :
    IsSameOr
      (fun found => host.IsNewFile larger found ∨ host.IsOpenedMain larger path extensions found)
      (host.moduleAt? path extensions directoryOnly)
      (larger.moduleAt? path extensions directoryOnly) := by
  rw [moduleAt?, moduleAt?, directoryAt?_eq_or absolute, directoryAt?_eq_or absolute]
  apply IsSameOr.or
  · split
    · exact .refl none
    · exact (isSameOr_fileAt? grows absolute extensions).mono fun _ _ => Or.inl
  · apply IsSameOr.or (isSameOr_mainOf? grows absolute extensions)
    exact (isSameOr_indexOf? grows absolute extensions).mono fun _ _ => Or.inl

end Grown

/-! ## Where a specifier is looked up -/

/-- A path at which a specifier is looked up from a directory. -/
inductive IsBase (specifier : Specifier) (directory : Path) : Path → Prop
  | path (notNamed : ¬specifier.NamesPackage) :
      IsBase specifier directory (directory.absoluteFrom specifier)
  | packages (named : specifier.NamesPackage) {ancestor : Path}
      (ancestor_mem : ancestor ∈ directory.ancestors) :
      IsBase specifier directory ((ancestor.join "node_modules".toList).join specifier)

theorem isSameOr_locate (grows : host.tree.GrowsTo larger.tree) (absolute : directory.isAbsolute)
    (specifier : Specifier) (extensions : List Text) :
    IsSameOr
      (fun found => host.IsNewFile larger found ∨
        ∃ base, IsBase specifier directory base ∧ host.IsOpenedMain larger base extensions found)
      (host.locate specifier directory extensions)
      (larger.locate specifier directory extensions) := by
  by_cases named : specifier.NamesPackage
  · rw [locate_of_namesPackage named, locate_of_namesPackage named]
    apply IsSameOr.findSome?
    intro ancestor ancestor_mem
    have above := Path.isAbsolute_of_mem_ancestors absolute ancestor_mem
    have baseAbsolute := Path.isAbsolute_join (Path.isAbsolute_join above "node_modules".toList)
      specifier
    rw [packageAt?_eq_moduleAt? above named.ne_nil named.bare,
      packageAt?_eq_moduleAt? above named.ne_nil named.bare]
    apply (isSameOr_moduleAt? grows baseAbsolute extensions specifier.isDirectoryOnly).mono
    rintro found - (isNew | opened)
    · exact Or.inl isNew
    · exact Or.inr ⟨_, .packages named ancestor_mem, opened⟩
  · unfold locate
    split
    · exact .refl none
    · rename_i nonempty
      rw [List.isEmpty_iff] at nonempty
      split
      · rename_i bare
        simp only [Bool.and_eq_true, decide_eq_true_eq, bne_iff_ne] at bare
        exact absurd ⟨bare.1.1, nonempty, bare.1.2, bare.2⟩ named
      · have baseAbsolute := Path.isAbsolute_absoluteFrom absolute specifier
        apply (isSameOr_moduleAt? grows baseAbsolute extensions specifier.isDirectoryOnly).mono
        rintro found - (isNew | opened)
        · exact Or.inl isNew
        · exact Or.inr ⟨_, .path named, opened⟩

/-! ## Package files at clean paths -/

theorem isName_packageFile : Path.IsName packageFile := by
  decide

theorem getLast?_pieces_join_packageFile (directory : Path) :
    (directory.join packageFile).pieces.getLast? = some packageFile := by
  rw [Path.pieces_join_step directory isName_packageFile.no_slash, List.getLast?_concat]

theorem join_packageFile_ne_root (directory : Path) : directory.join packageFile ≠ ['/'] := by
  intro isRoot
  have last := getLast?_pieces_join_packageFile directory
  rw [isRoot] at last
  contradiction

/-- A package file at a clean path is that of a clean directory. -/
theorem exists_isNormal_of_join_packageFile (normal : (directory.join packageFile).IsNormal) :
    ∃ clean : Path, clean.IsNormal ∧ directory.join packageFile = clean.join packageFile := by
  have isName := isName_packageFile
  have last := getLast?_pieces_join_packageFile directory
  rcases Path.IsNormal.iff_rooted.mp normal with ⟨names, all, written⟩
  rw [written, Path.pieces_rooted all] at last
  rcases List.eq_nil_or_concat' names with rfl | ⟨above, name, rfl⟩
  · exact absurd (Option.some.inj last).symm isName.ne_nil
  · rw [if_neg (by simp), ← List.cons_append, List.getLast?_concat, Option.some.injEq] at last
    subst last
    rcases Path.AreNames.concat.mp all with ⟨aboveNames, -⟩
    exact ⟨Path.rooted above, Path.isNormal_rooted aboveNames,
      by rw [written, Path.join_rooted aboveNames isName]⟩

theorem packageMain?_of_readsSamePackages (samePackages : host.ReadsSamePackages larger)
    (normal : (directory.join packageFile).IsNormal) :
    larger.packageMain? directory = host.packageMain? directory := by
  rcases exists_isNormal_of_join_packageFile normal with ⟨clean, cleanNormal, same⟩
  rw [packageMain?, packageMain?, same, samePackages clean cleanNormal]

/-- With package files that read the same, a main entry is opened at an unclean path alone. -/
theorem IsOpenedMain.not_isNormal {extensions : List Text} {found : Path}
    (opened : host.IsOpenedMain larger directory extensions found)
    (samePackages : host.ReadsSamePackages larger) : ¬(directory.join packageFile).IsNormal := by
  intro normal
  have unread := packageMain?_of_readsSamePackages samePackages normal
  have leads := opened.leads
  rw [mainOf?, unread, opened.unread] at leads
  contradiction

theorem isNormal_join_packageFile (normal : directory.IsNormal) :
    (directory.join packageFile).IsNormal := by
  rcases Path.IsNormal.iff_rooted.mp normal with ⟨names, all, rfl⟩
  rw [Path.join_rooted all isName_packageFile]
  exact Path.isNormal_rooted (Path.AreNames.concat.mpr ⟨all, isName_packageFile⟩)

/-- From a clean directory, the package file of a tidy specifier has a clean path. -/
theorem isNormal_packageFile_of_isTidy {ancestor : Path} (normal : directory.IsNormal)
    (ancestor_mem : ancestor ∈ directory.ancestors) (named : specifier.NamesPackage)
    (tidy : specifier.IsTidy) :
    (((ancestor.join "node_modules".toList).join specifier).join packageFile).IsNormal := by
  have isName := isName_packageFile
  have packages := isNormal_packages normal ancestor_mem
  have relative := Specifier.isAbsolute_eq_false_of_bare named.bare
  have absolute := Path.isAbsolute_join (Path.isAbsolute_join packages.absolute specifier)
    packageFile
  have tidyPath := (Path.areNames_pieces_join_name_iff packages relative isName).mpr tidy
  exact (Path.isNormal_iff_areNames (join_packageFile_ne_root _)).mpr ⟨absolute, tidyPath⟩

/-- What a lookup finds through an opened main entry, in a package at an unclean path. -/
def IsOpenedPackage (host larger : Host) (specifier : Specifier) (directory : Path)
    (extensions : List Text) (found : Path) : Prop :=
  specifier.NamesPackage ∧ ∃ ancestor ∈ directory.ancestors,
    ¬(((ancestor.join "node_modules".toList).join specifier).join packageFile).IsNormal ∧
    host.IsOpenedMain larger ((ancestor.join "node_modules".toList).join specifier) extensions found

theorem isSameOr_locate_of_readsSamePackages (grows : host.tree.GrowsTo larger.tree)
    (samePackages : host.ReadsSamePackages larger) (absolute : directory.isAbsolute)
    (specifier : Specifier) (extensions : List Text) :
    IsSameOr
      (fun found => host.IsNewFile larger found ∨
        host.IsOpenedPackage larger specifier directory extensions found)
      (host.locate specifier directory extensions)
      (larger.locate specifier directory extensions) := by
  apply (isSameOr_locate grows absolute specifier extensions).mono
  rintro found - (isNew | ⟨base, isBase, opened⟩)
  · exact Or.inl isNew
  · have unclean := opened.not_isNormal samePackages
    cases isBase with
    | path notNamed =>
        have normal := Path.isNormal_absoluteFrom absolute specifier
        exact absurd (isNormal_join_packageFile normal) unclean
    | packages named ancestor_mem =>
        exact Or.inr ⟨named, _, ancestor_mem, unclean, opened⟩

/--
In a tree that has grown, with package files that read the same, a lookup finds what it found
before or a file that was none, unless a package is written in an untidy way or looked up from
an unclean directory. Even then it finds nothing else but through a main entry that could not be
read before, at an unclean path.
-/
theorem isSameOrNew_locate (grows : host.tree.GrowsTo larger.tree)
    (samePackages : host.ReadsSamePackages larger) (absolute : directory.isAbsolute)
    (specifier : Specifier) (extensions : List Text) :
    ((specifier.NamesPackage → directory.IsNormal ∧ specifier.IsTidy) →
      IsSameOr (host.IsNewFile larger) (host.locate specifier directory extensions)
        (larger.locate specifier directory extensions)) ∧
    IsSameOr
      (fun found => host.IsNewFile larger found ∨
        host.IsOpenedPackage larger specifier directory extensions found)
      (host.locate specifier directory extensions)
      (larger.locate specifier directory extensions) := by
  have sameOr :=
    isSameOr_locate_of_readsSamePackages grows samePackages absolute specifier extensions
  refine ⟨?_, sameOr⟩
  intro tidy
  apply sameOr.mono
  rintro found - (isNew | ⟨named, ancestor, ancestor_mem, unclean, -⟩)
  · exact isNew
  · rcases tidy named with ⟨normal, isTidy⟩
    exact absurd (isNormal_packageFile_of_isTidy normal ancestor_mem named isTidy) unclean

/-! ## Hosts without links -/

/-- Where there are no links, package files read the same if no new one stands anywhere. -/
theorem readsSamePackages_of_isLinkFree (grows : host.tree.GrowsTo larger.tree)
    (linkFree : larger.tree.IsLinkFree)
    (noneNew : ∀ above node, larger.tree.node? (above ++ [packageFile]) = some node →
      host.tree.node? (above ++ [packageFile]) = some node) :
    host.ReadsSamePackages larger := by
  intro directory normal
  rcases Path.IsNormal.iff_rooted.mp normal with ⟨names, all, rfl⟩
  have fileNames := Path.AreNames.concat.mpr ⟨all, isName_packageFile⟩
  rw [Path.join_rooted all isName_packageFile]
  cases read : host.readText (Path.rooted (names ++ [packageFile])) with
  | ok content => rw [readText_of_growsTo grows rfl read]
  | error error =>
      cases later : larger.readText (Path.rooted (names ++ [packageFile])) with
      | error _ => rfl
      | ok content =>
          rcases readText_eq_ok_iff.mp later with ⟨location, found⟩
          have stands := noneNew names _ (node?_of_find linkFree fileNames found)
          have before := find_of_stands grows linkFree fileNames stands found
          rw [readText_eq_ok_iff.mpr ⟨location, before⟩] at read
          contradiction

/-- New files under other names leave all package files as they are. -/
theorem Builds.readsSamePackages {nodes : List (Path × Node)} (built : host.Builds nodes larger)
    (linkFree : host.tree.IsLinkFree)
    (others : ∀ entry ∈ nodes, entry.1.lastPiece?.map Prod.snd ≠ some packageFile) :
    host.ReadsSamePackages larger := by
  apply readsSamePackages_of_isLinkFree built.growsTo (built.isLinkFree linkFree)
  intro above node stands
  rcases built.node?_of_builds stands with before | ⟨-, entry, entry_mem, location, last⟩
  · exact before
  · rcases last with ⟨name, isLast, piece⟩
    rw [List.singleton_inj.mp (List.append_inj_right' isLast rfl)] at others
    exact absurd piece (others entry entry_mem)

/-- The root alone. -/
def rootHost : Host := ⟨.empty, ⟨[], 0⟩, none⟩

theorem isLinkFree_rootHost : rootHost.tree.IsLinkFree := by
  intro location target
  cases location with
  | nil => exact nofun
  | cons name rest => exact nofun

/-- A directory and a package beside it, whose main entry is one of its modules. -/
def packageNodes : List (Path × Node) :=
  [("/a".toList, .directory),
    ("/node_modules".toList, .directory),
    ("/node_modules/q".toList, .directory),
    ("/node_modules/q/lib.js".toList, .file (some [])),
    ("/node_modules/q/package.json".toList,
      .file (some "\x7b\"main\":\"lib.js\"\x7d".toList))]

/-- Nodes are placed beside the package, and what is to be seen in both hosts is computed. -/
theorem exists_builds_of_computed {α : Type} (nodes : List (Path × Node))
    (view : Host × Host → α) (result : α)
    (noLinks : ∀ entry ∈ nodes, ∀ target, entry.2 ≠ .link target)
    (others : ∀ entry ∈ nodes, entry.1.lastPiece?.map Prod.snd ≠ some packageFile)
    (computed : (do
      let host ← rootHost.placeAll packageNodes
      let larger ← host.placeAll nodes
      return (host, larger)).toOption.map view = some result) :
    ∃ host larger, host.Builds nodes larger ∧ host.ReadsSamePackages larger ∧
      view (host, larger) = result := by
  rcases exists_of_map_toOption computed with ⟨hosts, placed, viewed⟩
  rcases exists_of_bind_eq_ok placed with ⟨host, first, rest⟩
  rcases exists_of_bind_pure_eq_ok rest with ⟨larger, second, rfl⟩
  have isPackage : rootHost.Builds packageNodes host := ⟨by simp [packageNodes], first⟩
  have built : host.Builds nodes larger := ⟨noLinks, second⟩
  exact ⟨host, larger, built,
    built.readsSamePackages (isPackage.isLinkFree isLinkFree_rootHost) others, viewed⟩

/-- The package is put below the directory as well, with an index in place of a main entry. -/
def nearerNodes : List (Path × Node) :=
  [("/a/node_modules".toList, .directory),
    ("/a/node_modules/q".toList, .directory),
    ("/a/node_modules/q/index.js".toList, .file (some []))]

theorem isSameOrNew_locate_of_nearerNodes :
    ∃ host larger : Host, host.Builds nearerNodes larger ∧ host.ReadsSamePackages larger ∧
      host.locate "q".toList "/a".toList [".js".toList] =
        some "/node_modules/q/lib.js".toList ∧
      larger.locate "q".toList "/a".toList [".js".toList] =
        some "/a/node_modules/q/index.js".toList ∧
      host.IsNewFile larger "/a/node_modules/q/index.js".toList := by
  rcases exists_builds_of_computed nearerNodes
    (fun hosts => (hosts.1.locate "q".toList "/a".toList [".js".toList],
      hosts.2.locate "q".toList "/a".toList [".js".toList]))
    (some "/node_modules/q/lib.js".toList, some "/a/node_modules/q/index.js".toList)
    (by simp [nearerNodes]) (by decide) (by decide +kernel) with
    ⟨host, larger, built, samePackages, viewed⟩
  rcases Prod.mk.inj viewed with ⟨before, after⟩
  have tidy : Specifier.IsTidy "q".toList := by
    unfold Specifier.IsTidy Path.AreNames
    decide
  have sameOrNew := (isSameOrNew_locate built.growsTo samePackages
    (rfl : Path.isAbsolute "/a".toList = true) "q".toList [".js".toList]).1
    fun _ => ⟨⟨by decide, by decide⟩, tidy⟩
  rw [before, after] at sameOrNew
  rcases sameOrNew with same | ⟨found, isFound, isNew⟩
  · exact absurd same (by decide)
  · rw [← Option.some.inj isFound] at isNew
    exact ⟨host, larger, built, samePackages, before, after, isNew⟩

/-- A file in a new directory beside the package. -/
def besideNodes : List (Path × Node) :=
  [("/node_modules/new".toList, .directory),
    ("/node_modules/new/x.js".toList, .file (some []))]

/-- A new directory may lead an untidy specifier to a file that was there. -/
theorem not_forall_isSameOrNew_locate :
    ¬∀ (host larger : Host) (nodes : List (Path × Node)) (directory : Path)
      (specifier : Specifier) (extensions : List Text),
      host.Builds nodes larger → host.ReadsSamePackages larger → directory.isAbsolute →
      IsSameOr (host.IsNewFile larger) (host.locate specifier directory extensions)
        (larger.locate specifier directory extensions) := by
  intro always
  rcases exists_builds_of_computed besideNodes
    (fun hosts => (hosts.1.locate "new/../q".toList "/".toList [".js".toList],
      hosts.2.locate "new/../q".toList "/".toList [".js".toList],
      hosts.1.isFile "/node_modules/q/lib.js".toList))
    (none, some "/node_modules/q/lib.js".toList, true)
    (by simp [besideNodes]) (by decide) (by decide +kernel) with
    ⟨host, larger, built, samePackages, viewed⟩
  simp only [Prod.mk.injEq] at viewed
  rcases viewed with ⟨before, after, wasFile⟩
  have sameOrNew := always host larger besideNodes "/".toList "new/../q".toList [".js".toList]
    built samePackages rfl
  rw [before, after] at sameOrNew
  rcases sameOrNew with same | ⟨found, isFound, isNew⟩
  · contradiction
  · rw [← Option.some.inj isFound] at isNew
    rw [isNew.no_file] at wasFile
    contradiction

end Host

end ImportResolution
