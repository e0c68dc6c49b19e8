import ImportResolution.Alias.Rule

/-!
# Options

What resolution works with once settings have been normalized: absolute
directories, compiled alias rules and lists without gaps. Options can also be put
together step by step.
-/

namespace ImportResolution

/-- Whether alias targets are checked for existence. -/
inductive Mode
  | development
  | production
  deriving DecidableEq, Repr

namespace Mode

/-- The word for a mode. -/
def text : Mode → Text
  | .development => "development".toList
  | .production => "production".toList

/-- The mode that a value of the environment stands for. -/
def ofEnvironment (value : Option Text) : Mode :=
  if value = some "production".toList then .production else .development

end Mode

/-- Extensions that are tried by default. -/
def defaultExtensions : List Text :=
  [".js", ".jsx", ".es", ".es6", ".mjs"].map String.toList

/-- Extensions of images by default. -/
def defaultImageTypes : List Text :=
  [".png", ".jpg", ".jpeg", ".gif", ".webp"].map String.toList

/-- Suffixes for scaled images by default. -/
def defaultImageScale : List Text :=
  ["@2x", "@3x"].map String.toList

/-- Normalized options. -/
structure Options where
  /-- The directory from which relative alias targets are taken. -/
  cwd : Path
  /-- Extensions that are tried, in order. -/
  extensions : List Text := defaultExtensions
  /-- Extensions that a result may lose. -/
  stripExtensions : List Text := defaultExtensions
  /-- Directories that are searched, in order. -/
  root : List Path := []
  /-- Alias rules, in order. -/
  aliases : List AliasRule := []
  /-- Extensions of images. -/
  imageTypes : List Text := defaultImageTypes
  /-- Suffixes for scaled images, in order. -/
  imageScale : List Text := defaultImageScale
  mode : Mode := .development

namespace Options

/-- The options with a root after those they have. -/
def addRoot (options : Options) (root : Path) : Options :=
  { options with root := options.root ++ [root] }

/-- The options with a rule after those they have. -/
def addRule (options : Options) (rule : AliasRule) : Options :=
  { options with aliases := options.aliases ++ [rule] }

/-- The options with other extensions, to be tried and to be lost. -/
def setExtensions (options : Options) (extensions : List Text) : Options :=
  { options with extensions, stripExtensions := extensions }

/-- The options with other extensions that a result may lose. -/
def setStripExtensions (options : Options) (extensions : List Text) : Options :=
  { options with stripExtensions := extensions }

/-- The options with other extensions of images. -/
def setImageTypes (options : Options) (types : List Text) : Options :=
  { options with imageTypes := types }

/-- The options with other suffixes for scaled images. -/
def setImageScale (options : Options) (scale : List Text) : Options :=
  { options with imageScale := scale }

/-- The options with another mode. -/
def setMode (options : Options) (mode : Mode) : Options :=
  { options with mode }

end Options

end ImportResolution
