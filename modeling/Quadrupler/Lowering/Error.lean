import Quadrupler.Tree.Basic
set_option autoImplicit false

/-!
# Lowering errors

Specification: sections 7 and 10.6 (structural errors).

A tree may hold nodes where they have no meaning, or lack children that its kinds ask
for.  An error names the node by its tag and place.
-/

namespace Quadrupler

/-- A child that a node cannot do without. -/
inductive Role where
  | target
  | value
  | condition
  | thenBlock
  | elseBlock
  | body
  | headStatements
  | discriminant
  | constant
  | leftOperand
  | rightOperand
  deriving DecidableEq, Repr, Inhabited

/-- The wording of a child. -/
def Role.describe : Role → String
  | .target => "target"
  | .value => "value"
  | .condition => "condition"
  | .thenBlock => "then block"
  | .elseBlock => "else block"
  | .body => "body"
  | .headStatements => "init and increment"
  | .discriminant => "discriminant"
  | .constant => "constant"
  | .leftOperand => "left operand"
  | .rightOperand => "right operand"

/-- A place in a tree where not every node has a meaning. -/
inductive Context where
  | companionOfIf
  | switchArm
  | outsideIf
  | outsideSwitch
  | insideExpression
  deriving DecidableEq, Repr, Inhabited

/-- The wording of a place in a tree. -/
def Context.describe : Context → String
  | .companionOfIf => "as a companion of this if statement"
  | .switchArm => "as a switch arm"
  | .outsideIf => "outside an if statement"
  | .outsideSwitch => "outside a switch"
  | .insideExpression => "inside an expression"

/-- Why a tree has no code. -/
inductive LoweringError where
  | missingChild (node : String) (location : Location) (role : Role)
  | misplaced (node : String) (location : Location) (context : Context)
  | invalidTarget (found : String) (location : Location)
  deriving DecidableEq, Repr, Inhabited

/-- The wording of an error. -/
def LoweringError.message : LoweringError → String
  | .missingChild node location role =>
    s!"'{node}' at {location.describe} is missing its {role.describe}"
  | .misplaced node location context =>
    s!"'{node}' at {location.describe} cannot appear {context.describe}"
  | .invalidTarget found location =>
    s!"assignment target at {location.describe} must be an identifier, found '{found}'"

end Quadrupler
