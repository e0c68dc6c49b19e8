import ImportResolution.Proofs.Resolution.RoundTrip

/-!
# Scaled images

An answer by a scaled image is the plain name of the image in the directory of the file
that a root has found for one of the scaled names (`Options.resolve_image_keeps_name`). The
file need not have the scaled name itself: the roots also add extensions and enter
directories. So an image at some scale stands beside the answer exactly when one stands
beside that file, which it does when the file is the scaled image
(`Host.hasVariant_of_image`).
-/

namespace ImportResolution

namespace Specifier

/-- The name of the file for an image at a scale. -/
def nameAt (specifier : Specifier) (scale : Text) : Text :=
  specifier.stem ++ scale ++ specifier.extension

variable {specifier : Specifier} {before : List Text} {name scale : Text}

theorem not_mem_nameAt {char : Char} (absent : char ∉ specifier.splitName.2)
    (notInScale : char ∉ scale) : char ∉ specifier.nameAt scale := by
  rw [← stem_append_extension, List.mem_append, not_or] at absent
  simp [nameAt, absent, notInScale]

theorem isName_nameAt (image : specifier.extension ≠ []) (noSlash : '/' ∉ specifier.splitName.2)
    (scaleNoSlash : '/' ∉ scale) : Path.IsName (specifier.nameAt scale) := by
  rcases exists_eq_dot_of_extension_ne_nil image with ⟨-, -, -, char, char_mem, notDot⟩
  have inName : char ∈ specifier.nameAt scale := by simp [nameAt, char_mem]
  rw [isName_iff (not_mem_nameAt noSlash scaleNoSlash)]
  refine ⟨?_, ?_, ?_⟩
  · exact List.ne_nil_of_mem inName
  · intro self
    simp [self, notDot] at inName
  · intro parent
    simp [parent, notDot] at inName

/-- A specifier with an extension has a name for its final segment. -/
theorem isName_splitName_snd (image : specifier.extension ≠ []) :
    Path.IsName specifier.splitName.2 := by
  have isName : Path.IsName (specifier.nameAt []) :=
    isName_nameAt image (not_mem_splitName_snd specifier).1 (by simp)
  rw [nameAt, List.append_nil, stem_append_extension] at isName
  exact isName

theorem scaledName_ne_nil (image : specifier.extension ≠ []) (scale : Text) :
    Options.scaledName specifier scale ≠ [] := by
  unfold Options.scaledName withDirectory
  split <;> simp [image]

theorem pieces_scaledName (split : Path.pieces specifier = before ++ [name])
    (noBackslash : '\\' ∉ name) (scaleNoSlash : '/' ∉ scale) :
    Path.pieces (Options.scaledName specifier scale) = before ++ [specifier.nameAt scale] := by
  have splitName := splitName_of_pieces split noBackslash
  have noSlash : ∀ piece ∈ before ++ [name], '/' ∉ piece := fun piece piece_mem =>
    Text.not_mem_of_mem_split (split ▸ piece_mem)
  have lastNoSlash : '/' ∉ specifier.nameAt scale :=
    not_mem_nameAt (by rw [splitName]; exact noSlash name (by simp)) scaleNoSlash
  have written : Options.scaledName specifier scale =
      Text.joinWith '/' (before ++ [specifier.nameAt scale]) := by
    rw [Options.scaledName, splitName]
    by_cases alone : before = []
    · simp [alone, withDirectory, Text.joinWith, nameAt]
    · rw [Text.joinWith_concat alone]
      simp [alone, withDirectory, nameAt]
  rw [written]
  exact Path.pieces_joinWith_concat
    (fun piece piece_mem => noSlash piece (List.mem_append_left [name] piece_mem)) lastNoSlash

/-- A specifier with an extension ends in the name of a file. -/
theorem exists_pieces_of_extension (image : specifier.extension ≠ [])
    (noBackslash : '\\' ∉ specifier) :
    ∃ before, Path.pieces specifier = before ++ [specifier.splitName.2] ∧
      Path.IsName specifier.splitName.2 ∧ '\\' ∉ specifier.splitName.2 := by
  rcases List.eq_nil_or_concat' (Path.pieces specifier) with none | ⟨before, last, split⟩
  · exact absurd none (Text.split_ne_nil '/' specifier)
  · have lastNoBackslash : '\\' ∉ last := by
      intro backslash_mem
      rw [← Path.joinWith_of_pieces split] at noBackslash
      exact noBackslash (Text.mem_joinWith_of_mem List.mem_concat_self backslash_mem)
    have splitName : specifier.splitName.2 = last := by
      rw [splitName_of_pieces split lastNoBackslash]
    exact ⟨before, splitName ▸ split, isName_splitName_snd image, splitName ▸ lastNoBackslash⟩

/-- Where a root is first asked for an image at a scale. -/
theorem absoluteFrom_dotted_scaledName {root : Path} (rootAbsolute : root.isAbsolute)
    (image : specifier.extension ≠ [])
    (split : Path.pieces specifier = before ++ [specifier.splitName.2])
    (noBackslash : '\\' ∉ specifier.splitName.2) (scaleNoSlash : '/' ∉ scale) :
    Path.AreNames (Path.followAll root.names before ++ [specifier.nameAt scale]) ∧
      root.absoluteFrom ('.' :: '/' :: Options.scaledName specifier scale) =
        Path.rooted (Path.followAll root.names before ++ [specifier.nameAt scale]) := by
  have noSlash : ∀ piece ∈ before ++ [specifier.splitName.2], '/' ∉ piece :=
    fun piece piece_mem => Text.not_mem_of_mem_split (split ▸ piece_mem)
  have isName := isName_nameAt image (noSlash _ List.mem_concat_self) scaleNoSlash
  refine ⟨Path.AreNames.concat.mpr ⟨?_, isName⟩, ?_⟩
  · exact Path.areNames_followAll (Path.areNames_names root) fun piece piece_mem =>
      noSlash piece (List.mem_append_left _ piece_mem)
  · exact absoluteFrom_dotted rootAbsolute (pieces_scaledName split noBackslash scaleNoSlash)
      isName

/-- The scaled name of an image loses nothing. -/
theorem keptName_nameAt {options : Options}
    (split : Path.pieces specifier = before ++ [specifier.splitName.2])
    (noBackslash : '\\' ∉ specifier.splitName.2) (scalePlain : '/' ∉ scale ∧ '\\' ∉ scale) :
    keptName options (Options.scaledName specifier scale) (specifier.nameAt scale) =
      specifier.nameAt scale := by
  have sameExtension := extension_of_pieces
    (pieces_scaledName split noBackslash scalePlain.1) (not_mem_nameAt noBackslash scalePlain.2)
  rw [keptName, if_pos sameExtension.symm]

/-- What is kept of a name is not `..` unless an extension leaves that of it. -/
theorem keptName_ne_parent {options : Options} {found : Text} (specifier : Specifier)
    (isName : Path.IsName found)
    (notLeft : ∀ ending ∈ options.stripExtensions, found ≠ ['.', '.'] ++ ending) :
    keptName options specifier found ≠ ['.', '.'] := by
  intro isParent
  unfold keptName at isParent
  split at isParent
  · exact isName.ne_parent isParent
  · rcases nameWithout_append found options.stripExtensions with same | ⟨ending, ending_mem, whole⟩
    · exact isName.ne_parent (same.symm.trans isParent)
    · rw [isParent] at whole
      exact notLeft ending ending_mem whole.symm

/--
The plain name of an image is taken from the directory of the file that was found, whatever
the result for that file has lost of its name.
-/
theorem absoluteFrom_unscaledName {options : Options} {file : Path} {scaled : Specifier}
    {directory : List Text} {found : Text} (fileNormal : file.IsNormal)
    (all : Path.AreNames (directory ++ [found]))
    (noBackslash : '\\' ∉ Path.rooted (directory ++ [found]))
    (below : ¬directory ++ [found] <+: file.parentOrSelf.names)
    (isName : Path.IsName specifier.splitName.2)
    (notParent : keptName options scaled found ≠ ['.', '.']) :
    file.parentOrSelf.absoluteFrom (Options.unscaledName specifier
        (ofModule options file scaled (Path.rooted (directory ++ [found])))) =
      Path.rooted (directory ++ [specifier.splitName.2]) := by
  have foundNoBackslash : '\\' ∉ found := fun mem =>
    noBackslash (List.mem_cons_of_mem '/' (Text.mem_joinWith_of_mem (by simp) mem))
  rcases exists_ofModule_eq fileNormal all noBackslash below with
    ⟨before, noSlash, arrives, written⟩
  rcases exists_directory_asRelative noSlash
    (not_mem_keptName (Path.AreNames.concat.mp all).2.no_slash)
    (not_mem_keptName foundNoBackslash) (fun _ => notParent) with ⟨lead, isLead, relative, leads⟩
  have image : Path.pieces (lead ++ '/' :: specifier.splitName.2) =
      Path.pieces lead ++ [specifier.splitName.2] := by
    rw [Path.pieces, Text.split_append_separator, Text.split_of_not_mem isName.no_slash]
    rfl
  rw [Options.unscaledName, written, isLead, stem_append_extension, Option.getD_some,
    Path.absoluteFrom_of_not_isAbsolute fileNormal.parentOrSelf.absolute
      (relative specifier.splitName.2), image, Path.followAll_append, leads, arrives,
    Path.followAll_singleton, Path.follow_of_isName isName]

/-- The final segment of an answer by a scaled image is the one that was written. -/
theorem splitName_unscaledName (specifier scaled : Specifier) :
    (Options.unscaledName specifier scaled).splitName.2 = specifier.splitName.2 := by
  rcases not_mem_splitName_snd specifier with ⟨noSlash, noBackslash⟩
  rw [Options.unscaledName, stem_append_extension, splitName_append_slash _ noSlash noBackslash]

end Specifier

namespace Options

variable {options : Options} {locator : Locator} {current file : Path}
  {specifier result : Specifier}

/--
An answer by a scaled image ends as the specifier does, whatever the scales are. It leads to
the directory of the first file found for one of the scaled names, whatever the name of that
file is, unless all that is kept of the name is `..`.
-/
theorem resolve_image_keeps_name (typesNonempty : ∀ type ∈ options.imageTypes, type ≠ [])
    (fileNormal : file.IsNormal)
    (resolved : (options.resolve locator current specifier file).resolution =
      .resolved result .rootImageScale) :
    ∃ scale root found, options.imageHit? locator specifier = some (scale, root, found) ∧
      result.splitName.2 = specifier.splitName.2 ∧
      (found.IsNormal → '\\' ∉ found → ¬found.names <+: file.parentOrSelf.names →
        (∀ ending ∈ options.stripExtensions, found.fileName? ≠ some (['.', '.'] ++ ending)) →
        ∃ directory, found.parent? = some directory ∧
          file.parentOrSelf.absoluteFrom result = directory.join specifier.splitName.2) := by
  have image : specifier.extension ≠ [] :=
    typesNonempty _ (extension_mem_imageTypes_of_resolved resolved)
  have isName := Specifier.isName_splitName_snd image
  rcases eq_unscaledName_of_resolved_image (Specifier.scaledName_ne_nil image) resolved with
    ⟨scale, root, found, hit, rfl⟩
  rw [Path.absoluteFrom_of_isNormal current fileNormal]
  refine ⟨scale, root, found, hit, Specifier.splitName_unscaledName specifier _, ?_⟩
  intro foundNormal noBackslash below notLeft
  rcases foundNormal.exists_rooted_concat below with ⟨directory, name, rfl, all, below⟩
  rcases Path.AreNames.concat.mp all with ⟨directoryNames, foundIsName⟩
  rw [Path.fileName?_rooted_concat all] at notLeft
  have notParent := Specifier.keptName_ne_parent (scaledName specifier scale) foundIsName
    fun ending ending_mem same => notLeft ending ending_mem (congrArg some same)
  refine ⟨Path.rooted directory, Path.parent?_rooted_concat all, ?_⟩
  rw [Specifier.absoluteFrom_unscaledName fileNormal all noBackslash below isName notParent,
    Path.join_rooted directoryNames isName]

/-- One root, and images at a scale that reaches into a directory. -/
def deepScale : Options where
  cwd := "/".toList
  stripExtensions := [".js".toList]
  root := ["/r".toList]
  imageTypes := [".png".toList]
  imageScale := ["@2x/z".toList]

/-- A locator that knows one image, and finds for it a file whose name is an extension. -/
def scriptLocator : Locator := fun specifier _ _ =>
  if specifier = "./i/a@2x/z.png".toList then some "/r/s/.js".toList else none

theorem resolve_image_keeps_name_in_deepScale :
    (deepScale.resolve scriptLocator [] "i\\a.png".toList "/d/f".toList).resolution =
      .resolved "../r/s/a.png".toList .rootImageScale ∧
    Path.absoluteFrom "/d".toList "../r/s/a.png".toList = "/r/s/a.png".toList := by
  have resolved : (deepScale.resolve scriptLocator [] "i\\a.png".toList "/d/f".toList).resolution =
      .resolved "../r/s/a.png".toList .rootImageScale := by decide
  rcases resolve_image_keeps_name (by decide) ⟨by decide, by decide⟩ resolved with
    ⟨scale, root, found, hit, -, leads⟩
  have same : deepScale.imageHit? scriptLocator "i\\a.png".toList =
      some ("@2x/z".toList, "/r".toList, "/r/s/.js".toList) := by decide
  rw [same, Option.some.injEq, Prod.mk.injEq, Prod.mk.injEq] at hit
  rcases hit with ⟨rfl, rfl, rfl⟩
  rcases leads ⟨by decide, by decide⟩ (by decide) (by decide) (by decide) with
    ⟨directory, isDirectory, leads⟩
  have directoryEq : directory = "/r/s".toList := (Option.some.inj isDirectory).symm
  subst directoryEq
  exact ⟨resolved, leads⟩

end Options

namespace Host

variable {host : Host} {options : Options} {file root found : Path}
  {specifier scaled result : Specifier}

/-- The answer stands in the directory of the file that was found for the scaled name. -/
theorem parentOrSelf_absoluteFrom_unscaledName (fileNormal : file.IsNormal)
    (importerDirectory : host.isDirectory file.parentOrSelf)
    (isName : Path.IsName specifier.splitName.2) (foundNormal : found.IsNormal)
    (isFile : host.isFile found) (noBackslash : '\\' ∉ found)
    (keptIsName : Path.IsName (Specifier.keptFileName options scaled found)) :
    (file.parentOrSelf.absoluteFrom (Options.unscaledName specifier
        (Specifier.ofModule options file scaled found))).parentOrSelf = found.parentOrSelf := by
  rcases exists_rooted_concat_of_isFile foundNormal isFile fileNormal.parentOrSelf
    importerDirectory with ⟨directory, name, rfl, all, below⟩
  rw [Specifier.keptFileName_rooted_concat all] at keptIsName
  have directoryNames := (Path.AreNames.concat.mp all).1
  rw [Specifier.absoluteFrom_unscaledName fileNormal all noBackslash below isName
      keptIsName.ne_parent, Path.parentOrSelf_rooted all,
    Path.parentOrSelf_rooted (Path.AreNames.concat.mpr ⟨directoryNames, isName⟩),
    List.dropLast_concat, List.dropLast_concat]

/-- A directory holds the image that a specifier asks for at some scale. -/
def HasVariant (host : Host) (options : Options) (specifier : Specifier) (directory : Path) :
    Prop :=
  ∃ scale ∈ options.imageScale, host.isFile (directory.join (specifier.nameAt scale)) = true

instance (host : Host) (options : Options) (specifier : Specifier) (directory : Path) :
    Decidable (host.HasVariant options specifier directory) :=
  inferInstanceAs (Decidable (∃ scale ∈ options.imageScale, _))

/--
An answer by a scaled image is about the first scale and the first root that hit. When
the file found there has the scaled name itself, an image at that scale stands beside
the answer. Whatever file was found, the images that stand beside the answer are those
that stand beside the file.
-/
theorem hasVariant_of_image (typesNonempty : ∀ type ∈ options.imageTypes, type ≠ [])
    (scalesPlain : ∀ scale ∈ options.imageScale, '/' ∉ scale ∧ '\\' ∉ scale)
    (rootsAbsolute : ∀ root ∈ options.root, root.isAbsolute) (fileNormal : file.IsNormal)
    (importerDirectory : host.isDirectory file.parentOrSelf) (noBackslash : '\\' ∉ specifier)
    (resolved : (host.resolveWith options specifier file).resolution =
      .resolved result .rootImageScale) :
    ∃ scale root found, options.imageHit? host.locate specifier = some (scale, root, found) ∧
      host.isFile found = true ∧
      (found = root.absoluteFrom ('.' :: '/' :: Options.scaledName specifier scale) →
        '\\' ∉ found →
        host.HasVariant options specifier (file.parentOrSelf.absoluteFrom result).parentOrSelf) ∧
      (found.IsNormal → '\\' ∉ found →
        Path.IsName (Specifier.keptFileName options (Options.scaledName specifier scale) found) →
        (host.HasVariant options specifier (file.parentOrSelf.absoluteFrom result).parentOrSelf ↔
          host.HasVariant options specifier found.parentOrSelf)) := by
  have image : specifier.extension ≠ [] :=
    typesNonempty _ (Options.extension_mem_imageTypes_of_resolved resolved)
  rcases Options.eq_unscaledName_of_resolved_image (Specifier.scaledName_ne_nil image) resolved with
    ⟨scale, root, found, hit, named⟩
  rcases Options.rootHit?_of_imageHit? hit with ⟨scale_mem, rootHit⟩
  rcases Options.located_of_rootHit? rootHit with ⟨root_mem, located⟩
  rcases Specifier.exists_pieces_of_extension image noBackslash with
    ⟨before, split, isName, nameNoBackslash⟩
  rcases scalesPlain scale scale_mem with ⟨scaleNoSlash, scaleNoBackslash⟩
  rw [locate_of_isRelative rfl] at located
  have isFile := isFile_of_moduleAt? located
  rw [Path.absoluteFrom_of_isNormal host.importBase fileNormal] at named
  have beside : found.IsNormal → '\\' ∉ found →
      Path.IsName (Specifier.keptFileName options (Options.scaledName specifier scale) found) →
      (file.parentOrSelf.absoluteFrom result).parentOrSelf = found.parentOrSelf := by
    intro foundNormal foundNoBackslash keptIsName
    rw [named]
    exact parentOrSelf_absoluteFrom_unscaledName fileNormal importerDirectory isName foundNormal
      isFile foundNoBackslash keptIsName
  refine ⟨scale, root, found, hit, isFile, ?_, ?_⟩
  · intro itself foundNoBackslash
    rcases Specifier.absoluteFrom_dotted_scaledName (rootsAbsolute root root_mem) image split
      nameNoBackslash scaleNoSlash with ⟨all, asked⟩
    rcases Path.AreNames.concat.mp all with ⟨directoryNames, scaledIsName⟩
    rw [asked] at itself
    subst itself
    have keptIsName : Path.IsName (Specifier.keptFileName options
        (Options.scaledName specifier scale)
        (Path.rooted (Path.followAll root.names before ++ [specifier.nameAt scale]))) := by
      rw [Specifier.keptFileName_rooted_concat all,
        Specifier.keptName_nameAt split nameNoBackslash (scalesPlain scale scale_mem)]
      exact scaledIsName
    rw [beside (Path.isNormal_rooted all) foundNoBackslash keptIsName,
      Path.parentOrSelf_rooted all, List.dropLast_concat]
    refine ⟨scale, scale_mem, ?_⟩
    rw [Path.join_rooted directoryNames scaledIsName]
    exact isFile
  · intro foundNormal foundNoBackslash keptIsName
    rw [beside foundNormal foundNoBackslash keptIsName]

/-- A root that holds an image at a scale and a file named after such an image. -/
def iconHost : Host where
  tree := ⟨[("r".toList, .directory [
    ("a@2x.png".toList, .file (some [])), ("b@2x.png.js".toList, .file (some []))])]⟩
  directory := ⟨[], 0⟩
  nodeEnv := none

/-- One root, and images at one scale. -/
def iconOptions : Options where
  cwd := "/".toList
  extensions := [".js".toList]
  stripExtensions := [".js".toList]
  root := ["/r".toList]
  imageTypes := [".png".toList]
  imageScale := ["@2x".toList]

theorem hasVariant_of_image_in_iconHost :
    iconHost.HasVariant iconOptions "a.png".toList "/r".toList := by
  have resolved : (iconHost.resolveWith iconOptions "a.png".toList "/f".toList).resolution =
      .resolved "./r/a.png".toList .rootImageScale := by decide
  rcases hasVariant_of_image (by decide) (by decide) (by decide) ⟨by decide, by decide⟩
    (by decide) (by decide) resolved with ⟨scale, root, found, hit, -, itself, -⟩
  have same : iconOptions.imageHit? iconHost.locate "a.png".toList =
      some ("@2x".toList, "/r".toList, "/r/a@2x.png".toList) := by decide
  rw [same, Option.some.injEq, Prod.mk.injEq, Prod.mk.injEq] at hit
  rcases hit with ⟨rfl, rfl, rfl⟩
  exact itself (by decide) (by decide)

/-- The file that was found may be no image at all: here it is a script named after one. -/
theorem not_forall_hasVariant :
    ¬∀ (host : Host) (options : Options) (file : Path) (specifier result : Specifier),
      (∀ type ∈ options.imageTypes, type ≠ []) →
      (∀ scale ∈ options.imageScale, '/' ∉ scale ∧ '\\' ∉ scale) →
      (∀ root ∈ options.root, root.isAbsolute) →
      file.IsNormal → host.isDirectory file.parentOrSelf → '\\' ∉ specifier →
      (host.resolveWith options specifier file).resolution = .resolved result .rootImageScale →
      host.HasVariant options specifier (file.parentOrSelf.absoluteFrom result).parentOrSelf := by
  intro always
  have variant := always iconHost iconOptions "/f".toList "b.png".toList "./r/b.png".toList
    (by decide) (by decide) (by decide) ⟨by decide, by decide⟩ (by decide) (by decide) (by decide)
  revert variant
  decide

end Host

end ImportResolution
