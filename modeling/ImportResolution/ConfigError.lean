import ImportResolution.FileTree.Basic
import ImportResolution.Glob.Pattern
import ImportResolution.Json.Error
import ImportResolution.Regex.Error

/-!
# Errors of a configuration

Only reading settings and normalizing them can fail. Resolution itself always has
an answer.
-/

namespace ImportResolution

/-- Why a configuration cannot be used. -/
inductive ConfigError
  /-- The working directory is not there. -/
  | io (error : FileError)
  | unreadable (path : Path) (error : FileError)
  | malformed (path : Path) (error : Json.Error)
  | invalidAlias (pattern : Text) (error : Regex.Error)
  | invalidRootGlob (pattern : Text) (error : Glob.Error)
  | other (message : Text)
  deriving DecidableEq, Repr

/-- The text by which an error is reported. -/
def ConfigError.text : ConfigError → Text
  | .io error => "IO error: ".toList ++ error.message.toList
  | .unreadable path error =>
      "Failed to read config at ".toList ++ path ++ ": ".toList ++ error.message.toList
  | .malformed path error =>
      "Failed to parse config at ".toList ++ path ++ ": ".toList ++ error.text
  | .invalidAlias pattern error =>
      "Invalid alias pattern `".toList ++ pattern ++ "`: ".toList ++ error.message.toList
  | .invalidRootGlob pattern error =>
      "Invalid root glob `".toList ++ pattern ++ "`: ".toList ++ error.message.toList
  | .other message => message

end ImportResolution
