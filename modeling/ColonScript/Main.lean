import ColonScript.CommandLine

/-!
# The program

Reads the command line and the file it names, and writes the report.
-/

namespace ColonScript
namespace CommandLine

/-- Reads a file, if it can be read. -/
def readContent (path : String) : IO (Option ByteArray) := do
  try
    return some (← IO.FS.readBinFile path)
  catch _ => return none

/-- Carries out one command. -/
def execute (arguments : List String) : IO UInt32 := do
  let action := Action.ofArguments arguments
  let content ←
    match action with
    | .file _ path => readContent path
    | _ => pure none
  let report := action.carryOut fun _ => content
  (← IO.getStdout).putStr report.stdout
  (← IO.getStderr).putStr report.stderr
  return report.exitCode.toUInt32

end CommandLine
end ColonScript

/-- Runs one command. -/
def main (arguments : List String) : IO UInt32 :=
  ColonScript.CommandLine.execute arguments
