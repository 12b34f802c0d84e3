import Quadrupler.Token.Basic
set_option autoImplicit false

/-!
# Syntax errors

Specification: sections 7 and 10.8 (expected and found token with the place).

An error names what was expected at a place and the token found there.
-/

namespace Quadrupler

namespace Syntax

/-- How many levels of nesting a program may open at once. -/
def nestingLimit : Nat := 256

/-- What the grammar asks for at a place. -/
inductive Expectation where
  /-- exactly this text -/
  | exactly (text : String)
  | operand
  | statement
  /-- an arm of a switch -/
  | arm
  /-- a program that opens fewer levels -/
  | fewerLevels
  /-- what a caller of the cursor describes -/
  | described (wording : String)
  deriving DecidableEq, Repr, Inhabited

/-- The wording of an expectation in messages. -/
def Expectation.describe : Expectation → String
  | .exactly text => s!"'{text}'"
  | .operand => "operand"
  | .statement => "statement"
  | .arm => "'case' or 'default'"
  | .fewerLevels => s!"nesting depth of at most {nestingLimit}"
  | .described wording => wording

end Syntax

/-- Why tokens are no program. -/
structure SyntaxError where
  expected : Syntax.Expectation
  /-- the token at the place, unless the tokens end there -/
  found : Option Token
  location : Location
  deriving DecidableEq, Repr, Inhabited

namespace SyntaxError

/-- The wording of what was found. -/
def describeFound (error : SyntaxError) : String :=
  match error.found with
  | some token => token.describe
  | none => "end of input"

/-- The wording of an error. -/
def message (error : SyntaxError) : String :=
  s!"Syntax error at {error.location.describe}: " ++
    s!"expected {error.expected.describe}, found {error.describeFound}"

end SyntaxError

end Quadrupler
