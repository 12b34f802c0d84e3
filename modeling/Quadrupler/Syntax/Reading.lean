import Quadrupler.Syntax.Cursor
set_option autoImplicit false

/-!
# Readings

Specification: sections 5, 7 and 10.3 (one cursor, one token back at most, the first error ends
the reading).

A reading moves a cursor and gives a value or the first error.  Nothing is undone after an error:
the cursor stays where the reading has got to, with the levels that it has opened.
-/

namespace Quadrupler

/-- Reads a value from a cursor, or fails, and moves the cursor. -/
abbrev Reading (α : Type) : Type := ExceptT SyntaxError (StateM Cursor) α

namespace Reading

open Syntax

/-- The value or the error, and the cursor afterwards. -/
def outcome {α : Type} (reading : Reading α) (cursor : Cursor) : Except SyntaxError α × Cursor :=
  reading.run.run cursor

/-! ## Looking and moving -/

/-- The next token, if there is one. -/
def peek : Reading (Option Token) := return (← get).peek?

/-- The place of the next token. -/
def here : Reading Location := return (← get).location

/-- Takes a token. -/
def advance : Reading Unit := modify Cursor.advance

/-- Gives a token back. -/
def retreat : Reading Unit := modify Cursor.retreat

/-- Fails because something else was expected here. -/
def fail {α : Type} (expected : Expectation) : Reading α := do throw ((← get).error expected)

/-- Moves the cursor, or fails as the move does. -/
def move (f : Cursor → Except SyntaxError Cursor) : Reading Unit := do
  match f (← get) with
  | .ok after => set after
  | .error e => throw e

/-- Opens a level. -/
def enter : Reading Unit := move Cursor.enter

/-- Closes levels. -/
def exit (levels : Nat) : Reading Unit := modify fun cursor => cursor.exit levels

/-- Takes a token of this kind and text. -/
def expect (kind : TokenKind) (text : String) : Reading Unit :=
  move fun cursor => cursor.expect kind text

/-- Takes a token of this kind and text if it is the next one, and tells whether it is. -/
def accept (kind : TokenKind) (text : String) : Reading Bool := do
  match (← get).accept? kind text with
  | some after =>
    set after
    return true
  | none => return false

/-! ## Reading again and again -/

/-- Reads at most `bound` values, until the cursor satisfies `stop`. -/
def upTo {α : Type} (stop : Cursor → Bool) (reading : Reading α) : Nat → Reading (List α)
  | 0 => return []
  | bound + 1 => do
    if stop (← get) then
      return []
    else
      let first ← reading
      let others ← upTo stop reading bound
      return first :: others

/-- Reads values until the cursor satisfies `stop` or is at the end.  Every value takes a token, so
there are no more values than tokens ahead. -/
def many {α : Type} (stop : Cursor → Bool) (reading : Reading α) : Reading (List α) := do
  upTo (fun cursor => stop cursor || cursor.atEnd) reading (← get).rest.length

end Reading

end Quadrupler
