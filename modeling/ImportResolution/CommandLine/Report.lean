import ImportResolution.Resolution.Basic

/-!
# Reports

The answer to one specifier as it is printed: as lines for a reader, or as a JSON
object whose members always stand in the same order.
-/

namespace ImportResolution

namespace CommandLine

/-- The answer to one specifier, with what it depends on. -/
structure Report where
  specifier : Specifier
  /-- The importing file as it was named. -/
  file : Path
  mode : Mode
  resolution : Resolution
  warnings : List Warning
  deriving DecidableEq, Repr

/-- A text, or `null`. -/
def optionalText (text : Option Text) : Json :=
  match text with
  | some text => .string text
  | none => .null

/-- A warning as a JSON object. -/
def warningJson (warning : Warning) : Json :=
  .object [
    ("code".toList, .string warning.code.text),
    ("specifier".toList, .string warning.specifier),
    ("importer".toList, .string warning.importer)]

namespace Report

/-- The report as a JSON object. -/
def toJson (report : Report) : Json :=
  .object [
    ("ok".toList, .bool report.resolution.isResolved),
    ("specifier".toList, .string report.specifier),
    ("file".toList, .string report.file),
    ("resolved".toList, optionalText report.resolution.specifier?),
    ("strategy".toList, optionalText (report.resolution.strategy?.map Strategy.text)),
    ("mode".toList, .string report.mode.text),
    ("warnings".toList, .array (report.warnings.map warningJson))]

/-- The report as lines. -/
def lines (report : Report) : List Text :=
  ["Specifier: ".toList ++ report.specifier, "Mode: ".toList ++ report.mode.text] ++
    match report.resolution with
    | .resolved specifier strategy =>
        ["Resolved: ".toList ++ specifier, "Strategy: ".toList ++ strategy.text]
    | .unresolved => ["Status: UNRESOLVED".toList]

/-- The report as it is printed. -/
def text (report : Report) (json : Bool) : Text :=
  if json then report.toJson.prettyText 0 ++ ['\n']
  else report.lines.flatMap (· ++ ['\n'])

end Report

end CommandLine

end ImportResolution
