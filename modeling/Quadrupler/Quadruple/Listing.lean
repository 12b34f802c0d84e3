import Quadrupler.Quadruple.Basic
import Quadrupler.Text.Column
import Quadrupler.Text.Fields
set_option autoImplicit false

/-!
# Listings

Specification: sections 6 and 10.7 (fixed rendering, label positions).

Quadruples in the order in which they run, printed as a table with one line each.
-/

namespace Quadrupler

/-- The code of a program. -/
abbrev Listing := List Quadruple

namespace Listing

/-- Width of the column of operations. -/
def operationWidth : Nat := 8

/-- Width of the columns of operands.  The result comes last and is not padded. -/
def operandWidth : Nat := 9

/-- What stands between two columns. -/
def rule : String := " | "

/-- A line of the table. -/
def row (operation first second result : String) : String :=
  rule.intercalate
    [Text.padRight operationWidth operation, Text.padRight operandWidth first,
     Text.padRight operandWidth second, result]

/-- The line above the quadruples. -/
def header : String := row "Operator" "Operand1" "Operand2" "Result"

end Listing

/-- The line of a quadruple. -/
def Quadruple.row (q : Quadruple) : String :=
  Listing.row q.operation.render q.first.render q.second.render q.result.render

namespace Listing

/-- The table, without a line feed at its end. -/
def render (listing : Listing) : String :=
  "\n".intercalate (header :: listing.map Quadruple.row)

/-- The columns of a line of the table, read back. -/
def columns (line : List Char) : List (List Char) := (Text.fields '|' line).map Text.trimmed

/-! ## Where labels stand -/

/-- Puts a label into a list in ascending order, in place of the same label. -/
def place (label : Label) (index : Nat) : List (Label × Nat) → List (Label × Nat)
  | [] => [(label, index)]
  | (other, there) :: others =>
    if label.index < other.index then
      (label, index) :: (other, there) :: others
    else if label.index = other.index then
      (label, index) :: others
    else
      (other, there) :: place label index others

/-- Each label with the index of its last definition, in ascending order. -/
def labelPositions (listing : Listing) : List (Label × Nat) :=
  listing.zipIdx.foldl
    (fun positions (q, index) =>
      match q.label? with
      | some label => place label index positions
      | none => positions)
    []

end Listing

end Quadrupler
