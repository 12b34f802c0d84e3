import Mathlib.Algebra.Group.Defs
import Quadrupler.Proofs.Lowering.Code
set_option autoImplicit false

/-!
# Adding up what is lowered

A price for every kind of node gives one for every tree: the price of its root and those of the
children that are lowered, together.  What stands in a slot that lowering does not look at is free.
-/

namespace Quadrupler

namespace Tree

variable {M : Type} [AddCommMonoid M] (price : Kind → M)

mutual

/-- The price of the root and the total of the children that are lowered. -/
def total : Tree → M
  | ⟨.number text, _, _, _, _⟩ => price (.number text)
  | ⟨.identifier name, _, _, _, _⟩ => price (.identifier name)
  | ⟨.empty, _, _, _, _⟩ => price .empty
  | ⟨.step op, _, _, _, _⟩ => price (.step op)
  | ⟨.assign, _, _, right, _⟩ => price .assign + slotTotal right
  | ⟨.returning, _, _, right, _⟩ => price .returning + slotTotal right
  | ⟨.elseBranch, _, _, right, _⟩ => price .elseBranch + slotTotal right
  | ⟨.defaultArm, _, _, right, _⟩ => price .defaultArm + slotTotal right
  | ⟨.binary op, _, left, right, _⟩ => price (.binary op) + slotTotal left + slotTotal right
  | ⟨.whileLoop, _, left, right, _⟩ => price .whileLoop + slotTotal left + slotTotal right
  | ⟨.doLoop, _, left, right, _⟩ => price .doLoop + slotTotal left + slotTotal right
  | ⟨.caseArm, _, left, right, _⟩ => price .caseArm + slotTotal left + slotTotal right
  | ⟨.separator, _, left, right, _⟩ => price .separator + slotTotal left + slotTotal right
  | ⟨.sequence, _, left, right, _⟩ => price .sequence + slotTotal left + slotTotal right
  | ⟨.ifThen, _, left, right, others⟩ =>
    price .ifThen + slotTotal left + slotTotal right + allTotal others
  | ⟨.forLoop, _, left, right, head⟩ =>
    price .forLoop + slotTotal left + slotTotal right + allTotal head
  | ⟨.switch, _, left, _, arms⟩ => price .switch + slotTotal left + allTotal arms
  | ⟨.block, _, _, _, body⟩ => price .block + allTotal body

def slotTotal : Option Tree → M
  | none => 0
  | some t => total t

/-- The total of several trees. -/
def allTotal : List Tree → M
  | [] => 0
  | t :: ts => total t + allTotal ts

end

variable {price}

theorem total_row {t : Tree} (h : t.isSequence = true) :
    t.total price = price t.kind + slotTotal price t.left + slotTotal price t.right := by
  obtain ⟨kind, p, left, right, ss⟩ := t
  cases kind <;> simp_all [isSequence, total]

end Tree

namespace Lowering

open Quadrupler.Tree

/-- Where the word itself is free, an alternative costs what its block does. -/
theorem Companions.allTotal_eq {M : Type} [AddCommMonoid M] {price : Kind → M} {others : List Tree}
    (h : Companions others) (free : price .elseBranch = 0) :
    allTotal price others = slotTotal price (elseBody? others) := by
  cases h with
  | none => rfl
  | one => simp [allTotal, slotTotal, elseBody?, total, free]

end Lowering

end Quadrupler
