import Quadrupler.CommandLine.Folder
import Quadrupler.Compile
import Quadrupler.Quadruple.Check
import Quadrupler.Viewer.Basic
set_option autoImplicit false

/-!
# The command line

Specification: sections 10.7 to 10.10 (check of what is lowered, errors, messages, arguments).

A command line names a file and may ask for its listing.  What is printed and how the run
ends follows from the arguments and from what the path of the file names; the only thing
left to do elsewhere is to show the viewer.
-/

namespace Quadrupler.CommandLine

/-- What a finished run leaves behind. -/
structure Outcome where
  status : UInt32
  output : String := ""
  errors : String := ""
  deriving DecidableEq, Repr, Inhabited

/-- How a run goes on once the file has been read. -/
inductive Ending where
  | exit (outcome : Outcome)
  /-- the viewer opens, after these messages -/
  | view (viewer : Viewer) (errors : String)

/-! ## Arguments -/

/-- What has been read of the arguments. -/
structure Arguments where
  input : Option String := none
  list : Bool := false
  deriving DecidableEq, Repr, Inhabited

/-- Why the arguments are of no use. -/
inductive UsageError where
  | unexpected (argument : String)
  | noInput
  | notFound (path : String)
  deriving DecidableEq, Repr, Inhabited

/-- The wording of an error. -/
def UsageError.message : UsageError → String
  | .unexpected argument => s!"Error: unexpected argument '{argument}'\n"
  | .noInput => "Error: No input file provided\n\n"
  | .notFound path => s!"Error: File '{path}' not found\n"

/-- How the program is called. -/
def usage (program : String) : String :=
  s!"Usage: {program} <file> [--list]\n\n" ++
    "  --list    print the quadruple listing instead of opening the viewer\n"

/-- Reads arguments in order, after some that have been read. -/
def readArguments (read : Arguments) : List String → Except UsageError Arguments
  | [] => .ok read
  | argument :: others =>
    if argument = "--list" then readArguments { read with list := true } others
    else if read.input.isNone then readArguments { read with input := some argument } others
    else .error (.unexpected argument)

/-- The path of the file, and whether to list. -/
def request (arguments : List String) : Except UsageError (String × Bool) := do
  let read ← readArguments {} arguments
  match read.input with
  | some path => .ok (path, read.list)
  | none => .error .noInput

/-! ## The run -/

/-- The end of a run whose arguments are of no use. -/
def refuse (program : String) (e : UsageError) : Outcome :=
  { status := 1, errors := e.message ++ usage program }

/-- The text at an entry, or why it cannot be read. -/
def text : Entry → Except String String
  | .absent => .error "No such file or directory (os error 2)"
  | .folder => .error "Is a directory (os error 21)"
  | .unreadable reason => .error reason
  | .file bytes =>
    match String.fromUTF8? bytes with
    | some text => .ok text
    | none => .error "stream did not contain valid UTF-8"

/-- The last part of a path, by which the viewer calls the file. -/
def fileName (path : String) : String :=
  match (Folder.parts path).getLast? with
  | some name => if name = ".." then path else name
  | none => path

/-- The run on a text that was read from a path. -/
def process (path source : String) (list : Bool) : Ending :=
  let parsing := s!"Parsing {path}...\n"
  match parse source with
  | .error e => .exit { status := 1, errors := parsing ++ e.message ++ "\n" }
  | .ok raw =>
    let t := raw.simplify
    let parsed := parsing ++ s!"Parsed successfully. Simplified tree has {t.size} nodes.\n"
    match Generator.empty.lower t with
    | (.error e, _) =>
      .exit { status := 1, errors := parsed ++ (CompileError.lowering e).message ++ "\n" }
    | (.ok (), generator) =>
      let quadruples := generator.listing.length
      let drawn := generator.counters
      let generated := parsed ++ s!"Generated {quadruples} quadruples " ++
        s!"({drawn.temporaries} temporaries, {drawn.labels} labels).\n"
      match generator.listing.check with
      | .error fault =>
        .exit { status := 1, errors := generated ++ s!"Listing check failed: {fault.message}\n" }
      | .ok () =>
        if list then
          .exit { status := 0, output := generator.listing.render ++ "\n", errors := generated }
        else
          .view (.start (fileName path) source t generator) generated

/-- The run on what stands at the path. -/
def openEntry (program path : String) (list : Bool) (entry : Entry) : Ending :=
  match entry with
  | .absent => .exit (refuse program (.notFound path))
  | entry =>
    match text entry with
    | .error reason =>
      .exit { status := 1,
              errors := s!"Error: failed to read '{path}'\n\nCaused by:\n    {reason}\n" }
    | .ok source => process path source list

/-- The whole run, where `look` says what stands at a path. -/
def run (program : String) (arguments : List String) (look : String → Entry) : Ending :=
  match request arguments with
  | .error e => .exit (refuse program e)
  | .ok (path, list) => openEntry program path list (look path)

end Quadrupler.CommandLine
