import Quadrupler.Tree.Basic
set_option autoImplicit false

/-!
# Walks through a tree

Specification: section 10.5 (chains are walked with an explicit stack).

Statements in a row make trees as deep as a program is long, so the walks keep the
trees that are still to visit in a list, the next one first, and do not recurse into
children.  Every walk ends because the trees still to visit have ever fewer nodes
between them; `weight` counts those, by recursion on the tree.
-/

namespace Quadrupler.Tree

/-! ## Weight -/

mutual

/-- The number of nodes of a tree. -/
def weight : Tree → Nat
  | ⟨_, _, left, right, statements⟩ =>
    slotWeight left + slotWeight right + totalWeight statements + 1

/-- The number of nodes of a slot. -/
def slotWeight : Option Tree → Nat
  | none => 0
  | some t => weight t

/-- The number of nodes of several trees. -/
def totalWeight : List Tree → Nat
  | [] => 0
  | t :: ts => weight t + totalWeight ts

end

@[simp] theorem totalWeight_nil : totalWeight [] = 0 := by simp [totalWeight]

@[simp] theorem totalWeight_cons (t : Tree) (ts : List Tree) :
    totalWeight (t :: ts) = weight t + totalWeight ts := by simp [totalWeight]

@[simp] theorem totalWeight_append (ts us : List Tree) :
    totalWeight (ts ++ us) = totalWeight ts + totalWeight us := by
  induction ts with
  | nil => simp
  | cons t ts ih => simp [ih]; omega

@[simp] theorem totalWeight_toList (slot : Option Tree) :
    totalWeight slot.toList = slotWeight slot := by
  cases slot <;> simp [slotWeight]

@[simp] theorem totalWeight_reverse (ts : List Tree) :
    totalWeight ts.reverse = totalWeight ts := by
  induction ts with
  | nil => simp
  | cons t ts ih => simp [ih]; omega

/-- A tree is one node more than its children. -/
theorem weight_eq (t : Tree) : weight t = totalWeight t.children + 1 := by
  obtain ⟨k, p, l, r, ss⟩ := t
  simp only [weight, children, totalWeight_append, totalWeight_toList]

theorem weight_pos (t : Tree) : 0 < weight t := by
  rw [weight_eq]; omega

/-- The part of a tree that its statements in a row hang from weighs less than the tree. -/
theorem slotWeights_lt_weight (t : Tree) :
    slotWeight t.left + slotWeight t.right < weight t := by
  have whole := weight_eq t
  simp only [children, totalWeight_append, totalWeight_toList] at whole
  omega

/-! ## Statements in a row -/

/-- The statements that trees in a row stand for, in the order in which they run. -/
def itemsOfAll : List Tree → List Tree
  | [] => []
  | t :: pending =>
    if t.isSequence then
      itemsOfAll (t.left.toList ++ t.right.toList ++ pending)
    else
      t :: itemsOfAll pending
termination_by pending => totalWeight pending
decreasing_by
  · have := slotWeights_lt_weight t
    simp; omega
  · have := weight_pos t
    simp; omega

/-- The statements of a tree in the order in which they run.  A tree that is not a
sequence is its own only statement. -/
def sequenceItems (t : Tree) : List Tree := itemsOfAll [t]

theorem totalWeight_itemsOfAll_le (ts : List Tree) :
    totalWeight (itemsOfAll ts) ≤ totalWeight ts := by
  fun_induction itemsOfAll ts with
  | case1 => simp
  | case2 t pending sequence ih =>
    have := slotWeights_lt_weight t
    simp at ih ⊢; omega
  | case3 t pending statement ih => simp; omega

/-! ## Size -/

/-- The number of nodes of several trees, added to those counted already.  The last child of
a tree is visited first. -/
def countAll : List Tree → Nat → Nat
  | [], counted => counted
  | t :: pending, counted => countAll (t.children.reverse ++ pending) (counted + 1)
termination_by pending => totalWeight pending
decreasing_by
  have := weight_eq t
  simp; omega

/-- The number of nodes of a tree. -/
def size (t : Tree) : Nat := countAll [t] 0

/-! ## Outline -/

/-- What stands one step further in than a tree: the statements of a sequence, and the
children of anything else.  So indentation follows nesting and not length. -/
def indented (t : Tree) : List Tree := if t.isSequence then t.sequenceItems else t.children

theorem totalWeight_indented_lt (t : Tree) : totalWeight t.indented < weight t := by
  unfold indented
  split
  case isTrue sequence =>
    have smaller := totalWeight_itemsOfAll_le (t.left.toList ++ t.right.toList ++ [])
    have less := slotWeights_lt_weight t
    rw [sequenceItems, itemsOfAll, if_pos sequence]
    simp only [totalWeight_append, totalWeight_toList, totalWeight_nil] at smaller
    omega
  case isFalse =>
    rw [weight_eq t]; omega

/-- One line per node, where each tree comes with its indentation. -/
def outlineAll : List (Nat × Tree) → List String
  | [] => []
  | (depth, t) :: pending =>
    ("".pushn ' ' (2 * depth) ++ t.tag) ::
      outlineAll (t.indented.map (fun child => (depth + 1, child)) ++ pending)
termination_by pending => totalWeight (pending.map Prod.snd)
decreasing_by
  have := totalWeight_indented_lt t
  have same : t.indented.map (Prod.snd ∘ fun child => (depth + 1, child)) = t.indented := by
    simp [Function.comp_def]
  simp only [List.map_append, List.map_map, same, List.map_cons, totalWeight_append,
    totalWeight_cons]
  omega

/-- One line per node, two blanks further in for each level. -/
def outline (t : Tree) : List String := outlineAll [(0, t)]

end Quadrupler.Tree
