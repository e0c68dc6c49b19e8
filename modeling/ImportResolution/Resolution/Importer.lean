import ImportResolution.Options.Basic

/-!
# Results relative to the importer

A module that was found is named by its path from the directory of the importing
file, with slashes and with `./` or `../` in front. When its extension is not the
one that was written, the result loses an extension that may be left out.
-/

namespace ImportResolution

namespace Specifier

/-- The way from the directory of `file` to `target`, which is taken from `cwd`. -/
def wayFromImporter (cwd file target : Path) : Specifier :=
  withSlashes (file.parentOrSelf.relativeTo (cwd.absoluteFrom target))

/-- The specifier by which `file` imports the module found for `specifier`. -/
def ofModule (options : Options) (file : Path) (specifier : Specifier) (found : Path) : Specifier :=
  let path := wayFromImporter options.cwd file found
  asRelative
    (if found.extension = specifier.extension then path
    else path.withoutExtension options.stripExtensions)

end Specifier

end ImportResolution
