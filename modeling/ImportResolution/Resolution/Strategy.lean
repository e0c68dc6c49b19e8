import ImportResolution.Resolution.Attempt
import ImportResolution.Resolution.Importer

/-!
# Strategies

The ways in which a specifier that is not relative can be resolved. An alias
replaces it; a root directory holds the module; or a root directory holds the
image at some scale. All of them work on the absolute path of the importing file.
-/

namespace ImportResolution

/-- The step that has produced a result. -/
inductive Strategy
  /-- The specifier was relative and stays as it is. -/
  | relative
  | aliased
  | root
  | rootImageScale
  deriving DecidableEq, Repr

/-- The word for a strategy. -/
def Strategy.text : Strategy → Text
  | .relative => "relative".toList
  | .aliased => "alias".toList
  | .root => "root".toList
  | .rootImageScale => "root_image_scale".toList

namespace Options

/-- What the first alias rule that matches makes of a specifier. -/
def aliasTarget? (options : Options) (specifier : Specifier) : Option Text :=
  options.aliases.findSome? fun rule => rule.apply specifier

/--
The result of the first alias rule that matches; an empty one is none. A relative
target is named from the importing file. Any other stays as it is, and outside
production a warning is given when it leads nowhere.
-/
def resolveAlias (options : Options) (locator : Locator) (file : Path) (specifier : Specifier) :
    Attempt Specifier :=
  match options.aliasTarget? specifier with
  | none => .miss
  | some target =>
      if target.isEmpty then .miss
      else if Specifier.isRelative target then
        .hit (Specifier.asRelative (Specifier.wayFromImporter options.cwd file target))
      else if options.mode = .production then .hit target
      else
        let query : Query := ⟨target, file.parentOrSelf, options.extensions⟩
        let warnings : List Warning :=
          if (locator.answer query).isSome then []
          else [⟨.unresolvedAliasTarget, target, file⟩]
        ⟨some target, warnings, [query]⟩

/-- The first module below a root; the empty specifier names none. -/
def searchRoots (options : Options) (locator : Locator) (specifier : Specifier) : Attempt Path :=
  if specifier.isEmpty then .miss
  else
    Attempt.firstOf
      (fun root => Attempt.ask locator ⟨'.' :: '/' :: specifier, root, options.extensions⟩)
      options.root

/-- The module below a root, named from the importing file. -/
def resolveRoot (options : Options) (locator : Locator) (file : Path) (specifier : Specifier) :
    Attempt Specifier :=
  (options.searchRoots locator specifier).map (Specifier.ofModule options file specifier)

/-- The specifier with a suffix between its stem and its extension. -/
def scaledName (specifier : Specifier) (scale : Text) : Specifier :=
  Specifier.withDirectory specifier.splitName.1
    (specifier.stem ++ scale ++ specifier.extension)

/-- The final segment of `specifier` in the directory of `scaled`. -/
def unscaledName (specifier scaled : Specifier) : Specifier :=
  (scaled.splitName.1.getD ['.']) ++ '/' :: (specifier.stem ++ specifier.extension)

/-- The image that a root holds at some scale, named without the scale. -/
def resolveImage (options : Options) (locator : Locator) (file : Path) (specifier : Specifier) :
    Attempt Specifier :=
  if specifier.extension ∈ options.imageTypes then
    Attempt.firstOf
      (fun scale =>
        let scaled := scaledName specifier scale
        (options.resolveRoot locator file scaled).map (unscaledName specifier))
      options.imageScale
  else .miss

/-- The attempt of one strategy. -/
def attempt (options : Options) (locator : Locator) (file : Path) (specifier : Specifier) :
    Strategy → Attempt Specifier
  | .relative => if specifier.isRelative then .hit specifier else .miss
  | .aliased => options.resolveAlias locator file specifier
  | .root => options.resolveRoot locator file specifier
  | .rootImageScale => options.resolveImage locator file specifier

end Options

end ImportResolution
