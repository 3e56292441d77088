import ColonScript.Session

/-!
# The command line

One program is run per command.  It is given as an argument or, with `--file`, as the content
of a file.  With `--pipe-mode` its value is printed after its output.
-/

namespace ColonScript
namespace CommandLine

/-- The options and the argument seen so far. -/
structure Draft where
  file : Bool := false
  pipe : Bool := false
  logLevel : Option String := none
  contents : Option String := none
deriving DecidableEq, Repr

/-- What a command asks for. -/
inductive Action where
  | reject
  | help
  | version
  | script (pipe : Bool) (source : String)
  | file (pipe : Bool) (path : String)
deriving DecidableEq, Repr

/-- Where the reading of arguments stands after one of them: it goes on, it waits for the value
of an option, or it is decided. -/
inductive Progress where
  | next (draft : Draft)
  | awaitLevel (draft : Draft)
  | done (action : Action)

/-- Notes the flag for files, once. -/
def Draft.setFile (d : Draft) : Progress :=
  if d.file then .done .reject else .next { d with file := true }

/-- Notes the flag for printing the value, once. -/
def Draft.setPipe (d : Draft) : Progress :=
  if d.pipe then .done .reject else .next { d with pipe := true }

/-- Notes the log level, once. -/
def Draft.setLevel (d : Draft) (level : String) : Progress :=
  if d.logLevel.isSome then .done .reject else .next { d with logLevel := some level }

/-- Notes the argument, once. -/
def Draft.setContents (d : Draft) (contents : String) : Progress :=
  if d.contents.isSome then .done .reject else .next { d with contents := some contents }

/-- Reads a group of one-letter options.  The log level takes the rest of the group as its
value, without an equals sign in front. -/
def readLetters (d : Draft) : List Char → Progress
  | [] => .next d
  | 'f' :: rest =>
      match d.setFile with
      | .next d => readLetters d rest
      | other => other
  | 'p' :: rest =>
      match d.setPipe with
      | .next d => readLetters d rest
      | other => other
  | 'l' :: [] => .awaitLevel d
  | 'l' :: '=' :: rest => d.setLevel (String.ofList rest)
  | 'l' :: rest => d.setLevel (String.ofList rest)
  | 'V' :: _ => .done .version
  | 'h' :: _ => .done .help
  | _ :: _ => .done .reject

/-- Reads a long option, given its name and the value after an equals sign. -/
def readLong (d : Draft) (name : String) (value : Option String) : Progress :=
  match name, value with
  | "file", none => d.setFile
  | "pipe-mode", none => d.setPipe
  | "log-level", some level => d.setLevel level
  | "log-level", none => .awaitLevel d
  | "version", none => .done .version
  | "help", none => .done .help
  | _, _ => .done .reject

/-- Splits a long option at its first equals sign. -/
def splitLong (cs : List Char) : String × Option String :=
  (String.ofList (cs.takeWhile (· ≠ '=')),
    match cs.dropWhile (· ≠ '=') with
    | [] => none
    | _ :: value => some (String.ofList value))

/-- Reads one argument that stands where an option may. -/
def readArgument (d : Draft) (argument : String) : Progress :=
  match argument.toList with
  | '-' :: '-' :: cs => readLong d (splitLong cs).1 (splitLong cs).2
  | '-' :: c :: cs => readLetters d (c :: cs)
  | _ => d.setContents argument

/-- The action of a complete command. -/
def Draft.action (d : Draft) : Action :=
  match d.contents with
  | none => .reject
  | some contents => if d.file then .file d.pipe contents else .script d.pipe contents

/-- Reads the arguments after `--`, which are not options. -/
def readPlain (d : Draft) : List String → Action
  | [] => d.action
  | argument :: rest =>
      match d.setContents argument with
      | .next d => readPlain d rest
      | .awaitLevel _ => .reject
      | .done action => action

/-- An argument can be the value of an option that stands before it. -/
def isValue (argument : String) : Bool :=
  match argument.toList with
  | '-' :: _ :: _ => false
  | _ => true

/-- Reads the arguments of a command. -/
def readFrom (d : Draft) : List String → Action
  | [] => d.action
  | "--" :: rest => readPlain d rest
  | argument :: rest =>
      match readArgument d argument with
      | .next d => readFrom d rest
      | .done action => action
      | .awaitLevel d =>
          match rest with
          | [] => .reject
          | level :: rest =>
              if isValue level then
                match d.setLevel level with
                | .next d => readFrom d rest
                | _ => .reject
              else .reject

/-- What the arguments of a command ask for. -/
def Action.ofArguments (arguments : List String) : Action :=
  readFrom {} arguments

/-- What a command leaves behind: its exit code and what it writes. -/
structure Report where
  exitCode : Nat
  stdout : String
  stderr : String
deriving DecidableEq, Repr

/-- A line of output. -/
def line (text : String) : String :=
  text ++ "\n"

/-- The lines that a run handed to the sink. -/
def printed (m : Machine) : String :=
  String.join (m.sink.lines.toList.map line)

/-- Runs a program. -/
def runSource (pipe : Bool) (source : String) : Report :=
  match Machine.initial.run source with
  | (.error e, m) => ⟨1, printed m, line e.message⟩
  | (.ok none, m) => ⟨0, printed m, ""⟩
  | (.ok (some v), m) => ⟨0, printed m ++ (if pipe then line v.display else ""), ""⟩

/-- Runs the program in a file, given the bytes of the file if it could be read. -/
def runFile (pipe : Bool) (path : String) (content : Option ByteArray) : Report :=
  match content.bind String.fromUTF8? with
  | some source => runSource pipe source
  | none =>
      ⟨1, "", line ("Failed to read the input file '" ++ path ++
        "'. Perhaps this file does not exist?")⟩

/-- The text that names the program and its version. -/
def versionText : String := "kpl 0.1.0"

/-- The text that shows how the program is called. -/
def usageText : String :=
  "Usage: kpl [OPTIONS] <CONTENTS>\n\n" ++
  "Options:\n" ++
  "  -f, --file                   Tells kpl to look at a file instead of a script\n" ++
  "  -p, --pipe-mode              Prints out the value of the program\n" ++
  "  -l, --log-level <LOG_LEVEL>  Log level [default: warn]\n" ++
  "  -h, --help                   Print help\n" ++
  "  -V, --version                Print version"

/-- Carries out an action, with a way to read files. -/
def Action.carryOut (readFile : String → Option ByteArray) : Action → Report
  | .reject => ⟨2, "", line usageText⟩
  | .help => ⟨0, line usageText, ""⟩
  | .version => ⟨0, line versionText, ""⟩
  | .script pipe source => runSource pipe source
  | .file pipe path => runFile pipe path (readFile path)

end CommandLine
end ColonScript
