import ImportResolution.CommandLine.Run
import ImportResolution.Host.Manifest

/-!
# The program

The arguments are those of `CommandLine.parse`; the host in which they are carried
out is described on standard input, as a `Manifest`. The answer goes to standard
output, and the exit code is that of `CommandLine.run`.
-/

namespace ImportResolution

namespace CommandLine

/-- The exit code when standard input describes no host. -/
def noHostCode : UInt32 := 2

/-- The lines of a stream up to its end, after the text read so far. -/
partial def readToEnd (stream : IO.FS.Stream) (text : String) : IO String := do
  let line ← stream.getLine
  if line.isEmpty then pure text else readToEnd stream (text ++ line)

/-- Carries out the command that the arguments ask for, and gives the exit code. -/
def execute (arguments : List String) : IO UInt32 := do
  match Manifest.read (← readToEnd (← IO.getStdin) "").toList with
  | .error error =>
      IO.eprintln (String.ofList error.text)
      pure noHostCode
  | .ok (manifest, host) =>
      let exit := run host (manifest.valueOf? "MODPATH_PRODUCTION")
        (arguments.map String.toList)
      IO.print (String.ofList exit.output)
      pure exit.code.toUInt32

end CommandLine

end ImportResolution

/-- The program. -/
def main (arguments : List String) : IO UInt32 :=
  ImportResolution.CommandLine.execute arguments
