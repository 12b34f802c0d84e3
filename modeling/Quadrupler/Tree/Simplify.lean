import Quadrupler.Tree.Basic
set_option autoImplicit false

/-!
# Simplification

Specification: sections 4.2 and 10.5 (simplifier).

Simplifying drops empty statements and hangs the statements of every row on one chain
of `sequence` nodes that grows to the left.  A slot whose tree holds nothing but empty
statements becomes empty; kinds and places of all other nodes stay.
-/

namespace Quadrupler.Tree

/-- Simplified statements in a row. -/
def chain (statements : List Tree) : Option Tree := row .sequence statements

mutual

/-- The simplified statements that a tree stands for, in the order in which they run. -/
def statementsOf : Tree → List Tree
  | ⟨.empty, _, _, _, _⟩ => []
  | ⟨.separator, _, left, right, _⟩ => statementsOfSlot left ++ statementsOfSlot right
  | ⟨.sequence, _, left, right, _⟩ => statementsOfSlot left ++ statementsOfSlot right
  | ⟨kind, location, left, right, statements⟩ =>
    [⟨kind, location, chain (statementsOfSlot left), chain (statementsOfSlot right),
      simplifyAll statements⟩]

/-- The simplified statements of a slot; none where it is empty. -/
def statementsOfSlot : Option Tree → List Tree
  | none => []
  | some t => statementsOf t

/-- Each tree simplified, those without a statement dropped. -/
def simplifyAll : List Tree → List Tree
  | [] => []
  | t :: ts => (chain (statementsOf t)).toList ++ simplifyAll ts

end

/-- The simplified tree; an empty block where no statement is left. -/
def simplify (t : Tree) : Tree := (chain (statementsOf t)).getD (block [] t.location)

end Quadrupler.Tree
