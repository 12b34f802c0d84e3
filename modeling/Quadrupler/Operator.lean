set_option autoImplicit false

/-!
# Operators of the source language

Specification: sections 4.1 and 10.6 (precedence, postfix steps).

Twelve binary operators on four levels of precedence, all grouping to the left,
and the two steps `++` and `--`, each of which adds or subtracts one.
-/

namespace Quadrupler

/-- An operator between two operands. -/
inductive BinaryOp where
  | lt | gt | le | ge | eq | ne
  | add | sub
  | mul | div | rem
  | pow
  deriving DecidableEq, Repr, Inhabited

namespace BinaryOp

/-- Every operator. -/
def all : List BinaryOp := [.lt, .gt, .le, .ge, .eq, .ne, .add, .sub, .mul, .div, .rem, .pow]

/-- The operator as it is written. -/
def symbol : BinaryOp → String
  | .lt => "<"
  | .gt => ">"
  | .le => "<="
  | .ge => ">="
  | .eq => "=="
  | .ne => "!="
  | .add => "+"
  | .sub => "-"
  | .mul => "*"
  | .div => "/"
  | .rem => "%"
  | .pow => "^"

/-- The operator written so, if there is one. -/
def ofSymbol? (text : String) : Option BinaryOp := all.find? fun op => op.symbol = text

/-- How tightly the operator binds, from comparisons (1) to powers (4). -/
def precedence : BinaryOp → Nat
  | .lt | .gt | .le | .ge | .eq | .ne => 1
  | .add | .sub => 2
  | .mul | .div | .rem => 3
  | .pow => 4

@[simp] theorem ofSymbol?_symbol (op : BinaryOp) : ofSymbol? op.symbol = some op := by
  cases op <;> decide

end BinaryOp

/-- A step of a variable by one. -/
inductive StepOp where
  | increment
  | decrement
  deriving DecidableEq, Repr, Inhabited

namespace StepOp

/-- The step as it is written after a variable. -/
def symbol : StepOp → String
  | .increment => "++"
  | .decrement => "--"

/-- The operator that carries the step out, with one as its right operand. -/
def arithmetic : StepOp → BinaryOp
  | .increment => .add
  | .decrement => .sub

/-- The step written so, if there is one. -/
def ofSymbol? (text : String) : Option StepOp :=
  if text = "++" then some .increment else if text = "--" then some .decrement else none

end StepOp

end Quadrupler
