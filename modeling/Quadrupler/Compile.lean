import Quadrupler.Lowering.Generator
import Quadrupler.Syntax.Parse
import Quadrupler.Tree.Simplify
set_option autoImplicit false

/-!
# Compiling a program

Specification: sections 2 and 10.8 (direction of the data, one error for both stages).

From the text of a program to its listing: read, simplify, lower.
-/

namespace Quadrupler

/-- Why a program has no listing. -/
inductive CompileError where
  | reading (e : SyntaxError)
  | lowering (e : LoweringError)
  deriving DecidableEq, Repr, Inhabited

/-- The wording of an error. -/
def CompileError.message : CompileError → String
  | .reading e => e.message
  | .lowering e => s!"Lowering error: {e.message}"

/-- The listing of a program. -/
def compile (source : String) : Except CompileError Listing := do
  let raw ← (parse source).mapError .reading
  (lower raw.simplify).mapError .lowering

end Quadrupler
