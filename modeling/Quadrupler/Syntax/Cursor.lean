import Quadrupler.Syntax.Error
import Quadrupler.Token.Scan
set_option autoImplicit false

/-!
# Cursors

Specification: sections 6, 10.3 and 10.4 (token supply, token cursor, nesting limit).

A cursor stands between two tokens of a list and counts the levels of nesting that are
open.  It moves by one token at a time.  A level is opened only below the limit, and
levels are closed by lowering the count, which stops at zero.
-/

namespace Quadrupler

/-- A place between two tokens. -/
structure Cursor where
  tokens : List Token
  /-- how many tokens lie behind -/
  position : Nat
  /-- how many levels of nesting are open -/
  depth : Nat
  deriving DecidableEq, Repr

namespace Cursor

open Syntax

/-- The cursor before the first token.  Comments are no part of the grammar. -/
def ofTokens (tokens : List Token) : Cursor :=
  ⟨tokens.filter fun token => token.kind ≠ .comment, 0, 0⟩

/-- The cursor before the first token of a text. -/
def ofText (source : String) : Cursor := ofTokens (Token.scan source)

/-! ## Looking and moving -/

/-- The tokens ahead. -/
def rest (cursor : Cursor) : List Token := cursor.tokens.drop cursor.position

/-- The next token, if there is one. -/
def peek? (cursor : Cursor) : Option Token := cursor.rest.head?

/-- No token is ahead. -/
def atEnd (cursor : Cursor) : Bool := cursor.rest.isEmpty

/-- The place of the next token, or the place after the last one. -/
def location (cursor : Cursor) : Location :=
  match cursor.peek? with
  | some token => token.location
  | none => (cursor.tokens.getLast?.map Token.stop).getD .start

/-- One token further, unless the cursor is at the end. -/
def advance (cursor : Cursor) : Cursor :=
  if cursor.atEnd then cursor else { cursor with position := cursor.position + 1 }

/-- One token back, unless the cursor is at the start. -/
def retreat (cursor : Cursor) : Cursor := { cursor with position := cursor.position - 1 }

/-- The error that something else was expected here. -/
def error (cursor : Cursor) (expected : Expectation) : SyntaxError :=
  ⟨expected, cursor.peek?, cursor.location⟩

/-! ## Levels -/

/-- How many levels can still be opened. -/
def free (cursor : Cursor) : Nat := nestingLimit - cursor.depth

/-- Opens a level, unless as many are open as a program may open. -/
def enter (cursor : Cursor) : Except SyntaxError Cursor :=
  if nestingLimit ≤ cursor.depth then .error (cursor.error .fewerLevels)
  else .ok { cursor with depth := cursor.depth + 1 }

/-- Closes levels, at most those that are open. -/
def exit (cursor : Cursor) (levels : Nat) : Cursor :=
  { cursor with depth := cursor.depth - levels }

/-! ## Single tokens -/

/-- The next token has this kind and text. -/
def check (cursor : Cursor) (kind : TokenKind) (text : String) : Bool :=
  cursor.peek?.any fun token => token.is kind text

/-- Moves past a token of this kind and text, if it is the next one. -/
def accept? (cursor : Cursor) (kind : TokenKind) (text : String) : Option Cursor :=
  if cursor.check kind text then some cursor.advance else none

/-- Moves past a token of this kind and text. -/
def expect (cursor : Cursor) (kind : TokenKind) (text : String) : Except SyntaxError Cursor :=
  match cursor.accept? kind text with
  | some cursor => .ok cursor
  | none => .error (cursor.error (.exactly text))

end Cursor

end Quadrupler
