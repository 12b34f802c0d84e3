import Mathlib.Algebra.GroupWithZero.Nat
import Mathlib.Data.List.Basic
import Quadrupler.Proofs.Tree.Shape
import Quadrupler.Text.Column
import Quadrupler.Tree.Walk
set_option autoImplicit false

/-!
# Walks are recursions

A walk keeps the trees that are still to visit in a list.  What it makes of the list is what it
makes of each tree in it, one after the other, whatever else is waiting.  So every walk solves an
equation that says what it makes of a tree by what it makes of smaller ones, and an equation of
this kind has one solution.

Simplification and lowering recurse into the children of a sequence.  What they make of it is what
they make of its items, one after the other (`statementsOf_eq_flatMap`, and
`Lowering.statement_eq_statements` for the code).
-/

namespace Quadrupler.Tree

variable {t u : Tree}

/-! ## Recursion on trees -/

theorem weight_le_totalWeight {ts : List Tree} (h : u ∈ ts) : weight u ≤ totalWeight ts := by
  induction h with
  | head ts =>
    rw [totalWeight_cons]
    omega
  | tail t _ ih =>
    rw [totalWeight_cons]
    omega

theorem weight_lt_of_mem_children (h : u ∈ t.children) : weight u < weight t := by
  have whole := weight_eq t
  have part := weight_le_totalWeight h
  omega

theorem weight_lt_of_mem_indented (h : u ∈ t.indented) : weight u < weight t :=
  Nat.lt_of_le_of_lt (weight_le_totalWeight h) (totalWeight_indented_lt t)

/-- Functions of trees are the same if they agree on a tree wherever they agree on the lighter
trees that they look at. -/
theorem eq_of_recursion {α : Type} {f g : Tree → α} (below : Tree → List Tree)
    (lighter : ∀ t, ∀ u ∈ below t, weight u < weight t)
    (agree : ∀ t, (∀ u ∈ below t, f u = g u) → f t = g t) : f = g := by
  funext t
  induction size : weight t using Nat.strongRecOn generalizing t with
  | ind size ih =>
    subst size
    exact agree t fun u member => ih (weight u) (lighter t u member) u rfl

/-- What holds of trees that are no sequences, and of a sequence if it holds of its two children,
holds of all trees. -/
theorem sequence_induction {motive : Tree → Prop} (single : ∀ t, t.isSequence = false → motive t)
    (sequence : ∀ t, t.isSequence = true → (∀ u ∈ t.left, motive u) → (∀ u ∈ t.right, motive u) →
      motive t) (t : Tree) : motive t := by
  induction size : weight t using Nat.strongRecOn generalizing t with
  | ind size ih =>
    subst size
    have lighter (u : Tree) (member : u ∈ t.left.toList ++ t.right.toList) : motive u :=
      ih _ (weight_lt_of_mem_children (List.mem_append_left t.statements member)) u rfl
    cases kind : t.isSequence with
    | false => exact single t kind
    | true =>
      refine sequence t kind (fun u member => ?_) fun u member => ?_
      · exact lighter u (List.mem_append_left _ (Option.mem_toList.mpr member))
      · exact lighter u (List.mem_append_right _ (Option.mem_toList.mpr member))

/-! ## Statements in a row -/

theorem itemsOfAll_append (ts us : List Tree) :
    itemsOfAll (ts ++ us) = itemsOfAll ts ++ itemsOfAll us := by
  fun_induction itemsOfAll ts with
  | case1 => rfl
  | case2 t pending sequence ih =>
    rw [List.cons_append, itemsOfAll, if_pos sequence, ← List.append_assoc, ih]
  | case3 t pending statement ih =>
    rw [List.cons_append, itemsOfAll, if_neg statement, ih, List.cons_append]

/-- The walk goes through the trees that wait one after the other. -/
theorem itemsOfAll_eq (ts : List Tree) : itemsOfAll ts = ts.flatMap sequenceItems := by
  induction ts with
  | nil => simp [itemsOfAll]
  | cons t ts ih =>
    rw [← List.singleton_append, itemsOfAll_append, ih]
    rfl

theorem sequenceItems_eq (t : Tree) :
    t.sequenceItems =
      if t.isSequence then (t.left.toList ++ t.right.toList).flatMap sequenceItems else [t] := by
  rw [sequenceItems, itemsOfAll]
  split
  · rw [List.append_nil, itemsOfAll_eq]
  · rw [itemsOfAll]

theorem sequenceItems_of_single (h : t.isSequence = false) : t.sequenceItems = [t] := by
  rw [sequenceItems_eq, h, if_neg (by decide)]

theorem sequenceItems_of_sequence (h : t.isSequence = true) :
    t.sequenceItems =
      t.left.toList.flatMap sequenceItems ++ t.right.toList.flatMap sequenceItems := by
  rw [sequenceItems_eq, if_pos h, List.flatMap_append]

/-- Statements in a row are simplified one after the other. -/
theorem statementsOf_eq_flatMap (t : Tree) :
    statementsOf t = t.sequenceItems.flatMap statementsOf := by
  induction t using sequence_induction with
  | single t single =>
    rw [sequenceItems_of_single single, List.flatMap_singleton]
  | sequence t sequence left right =>
    have slot (side : Option Tree)
        (h : ∀ u ∈ side, statementsOf u = u.sequenceItems.flatMap statementsOf) :
        statementsOfSlot side = (side.toList.flatMap sequenceItems).flatMap statementsOf := by
      cases side with
      | none => rfl
      | some u =>
        rw [statementsOfSlot, Option.toList_some, List.flatMap_singleton]
        exact h u rfl
    rw [statementsOf_row sequence, slot t.left left, slot t.right right, ← List.flatMap_append,
      ← sequenceItems_of_sequence sequence]

/-- A way down from a sequence. -/
inductive Side where
  | left
  | right
  deriving DecidableEq, Repr

def child? (t : Tree) : Side → Option Tree
  | .left => t.left
  | .right => t.right

/-- The path goes down from a tree through children of sequences and ends at a statement. -/
inductive Hangs : Tree → List Side → Tree → Prop where
  | here {t : Tree} : t.isSequence = false → Hangs t [] t
  | through {t u v : Tree} {side : Side} {path : List Side} : t.isSequence = true →
      t.child? side = some u → Hangs u path v → Hangs t (side :: path) v

/-- Where the paths part, the first one goes left and the other one right. -/
def LeftOf : List Side → List Side → Prop := List.Lex fun a b => a = .left ∧ b = .right

/-- The trees are those that the paths lead to, from left to right. -/
def LeftToRight (Leads : List Side → Tree → Prop) (ts : List Tree) : Prop :=
  ∃ placed : List (List Side × Tree), placed.map Prod.snd = ts ∧
    placed.Pairwise (fun a b => LeftOf a.1 b.1) ∧ ∀ path u, (path, u) ∈ placed ↔ Leads path u

namespace LeftToRight

variable {Leads Leads' : List Side → Tree → Prop} {ts us : List Tree}

theorem nil (none : ∀ path u, ¬Leads path u) : LeftToRight Leads [] :=
  ⟨[], rfl, .nil, fun path u => iff_of_false List.not_mem_nil (none path u)⟩

theorem congr (h : LeftToRight Leads ts) (same : ∀ path u, Leads path u ↔ Leads' path u) :
    LeftToRight Leads' ts := by
  obtain ⟨placed, trees, ordered, complete⟩ := h
  exact ⟨placed, trees, ordered, fun path u => (complete path u).trans (same path u)⟩

/-- The order stays when all paths begin with one more step. -/
theorem under (h : LeftToRight Leads ts) (side : Side) :
    LeftToRight (fun path u => ∃ rest, path = side :: rest ∧ Leads rest u) ts := by
  obtain ⟨placed, trees, ordered, complete⟩ := h
  refine ⟨placed.map fun place => (side :: place.1, place.2), ?_, ?_, fun path u => ?_⟩
  · rw [List.map_map, ← trees]
    rfl
  · exact List.pairwise_map.mpr (ordered.imp fun earlier => .cons earlier)
  · rw [List.mem_map]
    constructor
    · rintro ⟨place, member, same⟩
      cases same
      exact ⟨_, rfl, (complete _ _).mp member⟩
    · rintro ⟨rest, rfl, leads⟩
      exact ⟨(rest, u), (complete _ _).mpr leads, rfl⟩

theorem append (h : LeftToRight Leads ts) (h' : LeftToRight Leads' us)
    (apart : ∀ path u path' u', Leads path u → Leads' path' u' → LeftOf path path') :
    LeftToRight (fun path u => Leads path u ∨ Leads' path u) (ts ++ us) := by
  obtain ⟨placed, rfl, ordered, complete⟩ := h
  obtain ⟨placed', rfl, ordered', complete'⟩ := h'
  refine ⟨placed ++ placed', List.map_append, ?_, fun path u => ?_⟩
  · refine List.pairwise_append.mpr ⟨ordered, ordered', fun a member b member' => ?_⟩
    exact apart a.1 a.2 b.1 b.2 ((complete _ _).mp member) ((complete' _ _).mp member')
  · rw [List.mem_append, complete, complete']

end LeftToRight

theorem hangs_iff_of_sequence (h : t.isSequence = true) {path : List Side} {v : Tree} :
    t.Hangs path v ↔
      (∃ rest, path = .left :: rest ∧ ∃ u ∈ t.left, u.Hangs rest v) ∨
        ∃ rest, path = .right :: rest ∧ ∃ u ∈ t.right, u.Hangs rest v := by
  constructor
  · intro hangs
    cases hangs with
    | here single => exact absurd (h.symm.trans single) (by decide)
    | @through _ u _ side rest _ child hangs =>
      cases side with
      | left => exact .inl ⟨rest, rfl, u, child, hangs⟩
      | right => exact .inr ⟨rest, rfl, u, child, hangs⟩
  · rintro (⟨rest, rfl, u, child, hangs⟩ | ⟨rest, rfl, u, child, hangs⟩)
    · exact .through h child hangs
    · exact .through h child hangs

/-- What hangs from a slot. -/
theorem leftToRight_slot (slot : Option Tree)
    (h : ∀ u ∈ slot, LeftToRight u.Hangs u.sequenceItems) :
    LeftToRight (fun path v => ∃ u ∈ slot, u.Hangs path v)
      (slot.toList.flatMap sequenceItems) := by
  cases slot with
  | none =>
    refine .nil fun path v => ?_
    rintro ⟨u, member, -⟩
    cases member
  | some u =>
    have items : (some u).toList.flatMap sequenceItems = u.sequenceItems :=
      List.append_nil _
    rw [items]
    refine (h u rfl).congr fun path v => ⟨fun hangs => ⟨u, rfl, hangs⟩, ?_⟩
    rintro ⟨u', member, hangs⟩
    cases member
    exact hangs

/-- The items of a tree are the statements that hang from it, from left to right. -/
theorem leftToRight_sequenceItems (t : Tree) : LeftToRight t.Hangs t.sequenceItems := by
  induction t using sequence_induction with
  | single t single =>
    rw [sequenceItems_of_single single]
    refine ⟨[([], t)], rfl, List.pairwise_singleton _ _, fun path u => ?_⟩
    rw [List.mem_singleton]
    constructor
    · intro same
      cases same
      exact .here single
    · intro hangs
      cases hangs with
      | here => rfl
      | through sequence => exact absurd (sequence.symm.trans single) (by decide)
  | sequence t sequence left right =>
    have left := leftToRight_slot t.left left
    have right := leftToRight_slot t.right right
    rw [sequenceItems_of_sequence sequence]
    refine ((left.under .left).append (right.under .right) ?_).congr
      fun path v => (hangs_iff_of_sequence sequence).symm
    rintro _ _ _ _ ⟨rest, rfl, -⟩ ⟨rest', rfl, -⟩
    exact .rel ⟨rfl, rfl⟩

/-! ## Size -/

theorem totalWeight_eq_sum (ts : List Tree) : totalWeight ts = (ts.map weight).sum := by
  induction ts with
  | nil => rfl
  | cons t ts ih => rw [totalWeight_cons, ih, List.map_cons, List.sum_cons]

theorem countAll_eq (ts : List Tree) (counted : Nat) :
    countAll ts counted = counted + totalWeight ts := by
  fun_induction countAll ts counted with
  | case1 counted => rfl
  | case2 t pending counted ih =>
    rw [ih, totalWeight_append, totalWeight_reverse, totalWeight_cons, weight_eq]
    omega

theorem size_eq_weight : size = weight := by
  funext t
  rw [size, countAll_eq, totalWeight_cons, totalWeight_nil]
  omega

theorem size_eq (t : Tree) : t.size = 1 + (t.children.map size).sum := by
  rw [size_eq_weight, weight_eq, totalWeight_eq_sum, Nat.add_comm]

/-! ## Outline -/

theorem outlineAll_append (pending others : List (Nat × Tree)) :
    outlineAll (pending ++ others) = outlineAll pending ++ outlineAll others := by
  fun_induction outlineAll pending with
  | case1 => rfl
  | case2 depth t pending ih =>
    rw [List.cons_append, outlineAll, ← List.append_assoc, ih, List.cons_append]

theorem indentation_succ (depth : Nat) (tag : String) :
    "".pushn ' ' (2 * (depth + 1)) ++ tag = "  " ++ ("".pushn ' ' (2 * depth) ++ tag) := by
  apply String.toList_injective
  simp [Text.toList_pushn, Nat.mul_add, List.replicate_succ]

/-- Trees that stand one level further in have the same lines, two blanks further in. -/
theorem outlineAll_deeper (pending : List (Nat × Tree)) :
    outlineAll (pending.map fun place => (place.1 + 1, place.2)) =
      (outlineAll pending).map ("  " ++ ·) := by
  fun_induction outlineAll pending with
  | case1 => simp [outlineAll]
  | case2 depth t pending ih =>
    rw [List.map_append, List.map_map] at ih
    rw [List.map_cons, outlineAll, List.map_cons, ← ih, indentation_succ]
    rfl

theorem outlineAll_children (ts : List Tree) :
    outlineAll (ts.map fun child => (1, child)) =
      ts.flatMap fun u => u.outline.map ("  " ++ ·) := by
  induction ts with
  | nil => simp [outlineAll]
  | cons t ts ih =>
    rw [List.map_cons, ← List.singleton_append, outlineAll_append, ih, List.flatMap_cons, outline,
      ← outlineAll_deeper]
    rfl

theorem outline_eq (t : Tree) :
    t.outline = t.tag :: t.indented.flatMap fun u => u.outline.map ("  " ++ ·) := by
  rw [outline, outlineAll, List.append_nil, outlineAll_children]
  rfl

/-! ## Recursion -/

/-- The walks through a tree are recursions.  The items of a tree are the statements that hang from
it through the children of sequences, from left to right.  Items, size and outline solve the
recursion equations that define them by the children of a tree, and nothing else does. -/
theorem walks_recursive :
    (∀ t : Tree, LeftToRight t.Hangs t.sequenceItems) ∧
    (∀ f : Tree → List Tree, f = sequenceItems ↔ ∀ t : Tree, f t =
      if t.isSequence then (t.left.toList ++ t.right.toList).flatMap f else [t]) ∧
    (∀ f : Tree → Nat, f = size ↔ ∀ t : Tree, f t =
      1 + ((t.left.toList ++ t.right.toList ++ t.statements).map f).sum) ∧
    ∀ f : Tree → List String, f = outline ↔ ∀ t : Tree, f t =
      t.tag :: (if t.isSequence then t.sequenceItems
          else t.left.toList ++ t.right.toList ++ t.statements).flatMap fun u =>
        (f u).map ("  " ++ ·) := by
  refine ⟨leftToRight_sequenceItems, fun f => ⟨?_, fun h => ?_⟩, fun f => ⟨?_, fun h => ?_⟩,
    fun f => ⟨?_, fun h => ?_⟩⟩
  · rintro rfl
    exact sequenceItems_eq
  · refine eq_of_recursion children (fun t u => weight_lt_of_mem_children) fun t agree => ?_
    rw [h, sequenceItems_eq]
    have hanging : (t.left.toList ++ t.right.toList).flatMap f =
        (t.left.toList ++ t.right.toList).flatMap sequenceItems :=
      List.flatMap_congr fun u member => agree u (List.mem_append_left t.statements member)
    rw [hanging]
  · rintro rfl
    exact size_eq
  · refine eq_of_recursion children (fun t u => weight_lt_of_mem_children) fun t agree => ?_
    rw [h, size_eq]
    exact congrArg (fun sizes => 1 + sizes.sum) (List.map_congr_left agree)
  · rintro rfl
    exact outline_eq
  · refine eq_of_recursion indented (fun t u => weight_lt_of_mem_indented) fun t agree => ?_
    rw [h, outline_eq]
    exact congrArg _ (List.flatMap_congr fun u member => by rw [agree u member])

/-- A sequence below a separator is not shown, and a block is. -/
example :
    let name (text : String) : Tree := .identifier text .start
    let inner : Tree :=
      { kind := .sequence, location := .start, left := some (name "b"),
        right := some (.block [name "c"] .start) }
    outline { kind := .separator, location := .start, left := some (name "a"),
              right := some inner } =
      [";", "  a", "  b", "  block", "    c"] := by
  decide +kernel

end Quadrupler.Tree
