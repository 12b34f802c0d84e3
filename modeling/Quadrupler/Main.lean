import Quadrupler.CommandLine.Basic
import Quadrupler.Viewer.Frame
set_option autoImplicit false

/-!
# The program

Specification: sections 10.9 and 10.10 (messages, exit status, arguments).

Reads the file, prints what the run leaves behind, and shows the viewer as text: a frame,
then one line of input with the name of a key, and so on until the viewer quits or the
input ends.
-/

namespace Quadrupler.Main

/-- The name that the program goes by in messages. -/
def program : String := "quadc"

/-- What stands at a path. -/
def look (path : String) : IO Entry := do
  try
    return .file (← IO.FS.readBinFile path)
  catch
    | .noFileOrDirectory .. => return .absent
    | .inappropriateType _ 21 _ => return .folder
    | .inappropriateType .. => return .absent
    | e => return .unreadable (toString e)

/-- The characters of a screen. -/
def rows (grid : Screen.Grid) : List String :=
  grid.map fun row => String.ofList (row.map Screen.Cell.char)

/-- Shows frames, and presses the key that is named after each, until the viewer quits. -/
partial def display (viewer : Viewer) (input : IO.FS.Stream) : IO Unit := do
  match viewer.frame 80 24 with
  | (none, _) => return
  | (some grid, viewer) =>
    for row in rows grid do
      IO.println row
    let line ← input.getLine
    unless line.isEmpty do
      display (viewer.press (Viewer.Key.ofName line.trimAscii.toString)) input

end Quadrupler.Main

open Quadrupler in
def main (arguments : List String) : IO UInt32 := do
  let ending ← match CommandLine.request arguments with
    | .error e => pure (.exit (CommandLine.refuse Main.program e))
    | .ok (path, list) => pure (CommandLine.openEntry Main.program path list (← Main.look path))
  match ending with
  | .exit outcome =>
    IO.eprint outcome.errors
    IO.print outcome.output
    return outcome.status
  | .view viewer errors =>
    IO.eprint errors
    Main.display viewer (← IO.getStdin)
    return 0
