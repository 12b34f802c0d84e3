import Quadrupler.Tree.Basic
set_option autoImplicit false

/-!
# Normal trees

Specification: section 10.5 (what is left of a simplified tree).

A tree is normal when no statement in it is empty and its statements in a row hang on
chains of `sequence` nodes that grow to the left.  The notion is said of trees alone,
without simplification.
-/

namespace Quadrupler.Tree

/-- The root is normal: no separator and no empty statement, and a sequence joins two
children at the place of the right one, which is no sequence itself. -/
def isNormalRoot (t : Tree) : Bool :=
  match t.kind with
  | .separator | .empty => false
  | .sequence =>
    match t.left, t.right with
    | some _, some next =>
      !next.isSequence && decide (t.location = next.location) && t.statements.isEmpty
    | _, _ => false
  | _ => true

mutual

/-- Every node of the tree is normal. -/
def isNormal : Tree → Bool
  | ⟨kind, location, left, right, statements⟩ =>
    isNormalRoot ⟨kind, location, left, right, statements⟩ &&
      isNormalSlot left && isNormalSlot right && areNormal statements

/-- A slot that is empty or holds a normal tree. -/
def isNormalSlot : Option Tree → Bool
  | none => true
  | some t => isNormal t

/-- Normal trees. -/
def areNormal : List Tree → Bool
  | [] => true
  | t :: ts => isNormal t && areNormal ts

end

/-! ## Trees without their places -/

mutual

/-- The tree with every node moved to the start of the text. -/
def unplaced : Tree → Tree
  | ⟨kind, _, left, right, statements⟩ =>
    ⟨kind, .start, unplacedSlot left, unplacedSlot right, unplacedAll statements⟩

/-- What a slot holds, without its places. -/
def unplacedSlot : Option Tree → Option Tree
  | none => none
  | some t => some (unplaced t)

/-- Trees without their places. -/
def unplacedAll : List Tree → List Tree
  | [] => []
  | t :: ts => unplaced t :: unplacedAll ts

end

end Quadrupler.Tree
