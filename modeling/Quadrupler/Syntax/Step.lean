import Quadrupler.Syntax.Error
set_option autoImplicit false

/-!
# Reading steps

Specification: sections 4.1 and 10.4 (first error, nesting limit).

A step reads a value from the front of the tokens and returns the rest.  A step that
gets stuck reports what it expected, the tokens it had not read, and how many levels of
nesting were still free at that moment: the levels it had opened stay open.

Steps take the free levels as an argument and a step that succeeds closes what it
opened, so nothing but a stuck step has levels to report.

Steps are the parser without its cursor, in a form that recurses on the free levels: what a
reading of the parser does to a cursor follows the step of the same name
(`Reading.follows_expression`, `Reading.follows_statement`).
-/

namespace Quadrupler.Syntax

/-- Where and why reading stopped. -/
structure Stuck where
  expected : Expectation
  rest : List Token
  free : Nat
  deriving DecidableEq, Repr, Inhabited

/-- Reads a value from the front of the tokens. -/
abbrev Step (α : Type) : Type := List Token → Except Stuck (α × List Token)

/-- The tokens begin with one of this kind and text. -/
def begins (kind : TokenKind) (text : String) : List Token → Bool
  | [] => false
  | token :: _ => token.is kind text

/-- The tokens after one of this kind and text. -/
def expect (free : Nat) (kind : TokenKind) (text : String) (tokens : List Token) :
    Except Stuck (List Token) :=
  if begins kind text tokens then .ok tokens.tail else .error ⟨.exactly text, tokens, free⟩

/-- Reads at most `bound` values, until the tokens satisfy `stop`. -/
def readMany {α : Type} (stop : List Token → Bool) (step : Step α) : Nat → Step (List α)
  | 0, tokens => .ok ([], tokens)
  | bound + 1, tokens =>
    if stop tokens then
      .ok ([], tokens)
    else do
      let (first, tokens) ← step tokens
      let (others, tokens) ← readMany stop step bound tokens
      .ok (first :: others, tokens)

/-- Reads values until the tokens satisfy `stop` or end.  Every value takes a token, so
there are no more values than tokens. -/
def readUntil {α : Type} (stop : List Token → Bool) (step : Step α) : Step (List α) :=
  fun tokens => readMany (fun tokens => tokens.isEmpty || stop tokens) step tokens.length tokens

end Quadrupler.Syntax
