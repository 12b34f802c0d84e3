import Quadrupler.Tree.Basic
set_option autoImplicit false

/-!
# Ways down a tree

A way leads from the root of a tree to a leaf.  It is written as the kinds of the nodes it
passes, each with the slot it goes on through.  Nodes are counted by weights, and the height
of a tree for a weight bounds what any way down the tree counts.
-/

namespace Quadrupler.Tree

/-- How a way leaves a node. -/
inductive Turn where
  /-- nowhere: the node is a leaf -/
  | stop
  | left
  | right
  /-- to one of the statements -/
  | statement
  deriving DecidableEq, Repr

inductive Way : Tree → List (Kind × Turn) → Prop where
  | stop {t : Tree} : t.children = [] → Way t [(t.kind, .stop)]
  | left {t u : Tree} {way : List (Kind × Turn)} :
      t.left = some u → Way u way → Way t ((t.kind, .left) :: way)
  | right {t u : Tree} {way : List (Kind × Turn)} :
      t.right = some u → Way u way → Way t ((t.kind, .right) :: way)
  | statement {t u : Tree} {way : List (Kind × Turn)} :
      u ∈ t.statements → Way u way → Way t ((t.kind, .statement) :: way)

/-! ## Weights -/

/-- An arm of a switch. -/
def Kind.isArm : Kind → Bool
  | .caseArm | .defaultArm => true
  | _ => false

/-- Operators, switches, and blocks in braces.  The body of an arm is a block without
braces. -/
def Kind.nests (inArm : Bool) : Kind → Bool
  | .binary _ | .switch => true
  | .block => !inArm
  | _ => false

/-- The way goes on to what is read while no level is open for the node: to the first operand
of an operator, or to what a switch decides on. -/
def Kind.releases : Kind → Turn → Bool
  | .binary _, .left | .switch, .left => true
  | _, _ => false

/-- What a node counts, by whether it stands below an arm, its kind, and how it is left. -/
abbrev Weight : Type := Bool → Kind → Turn → Nat

def Weight.nesting : Weight := fun inArm kind _ => if kind.nests inArm then 1 else 0

def Weight.released : Weight := fun _ kind turn => if kind.releases turn then 1 else 0

def Weight.guarded : Weight := fun inArm kind turn =>
  if kind.nests inArm && !kind.releases turn then 1 else 0

/-- What a way counts, from a node that stands below an arm or not. -/
def Weight.total (weight : Weight) (inArm : Bool) : List (Kind × Turn) → Nat
  | [] => 0
  | (kind, turn) :: way => weight inArm kind turn + total weight kind.isArm way

/-- The number of operators, switches and blocks in braces on a way. -/
def nesting (way : List (Kind × Turn)) : Nat := Weight.nesting.total false way

/-- The number of operators and switches that a way leaves through their first slot. -/
def released (way : List (Kind × Turn)) : Nat := Weight.released.total false way

/-- The number of all others that `nesting` counts. -/
def guarded (way : List (Kind × Turn)) : Nat := Weight.guarded.total false way

theorem Weight.nesting_eq (inArm : Bool) (kind : Kind) (turn : Turn) :
    Weight.nesting inArm kind turn =
      Weight.guarded inArm kind turn + Weight.released inArm kind turn := by
  cases kind <;> cases turn <;> cases inArm <;> rfl

theorem Weight.total_nesting_eq (inArm : Bool) (way : List (Kind × Turn)) :
    Weight.nesting.total inArm way =
      Weight.guarded.total inArm way + Weight.released.total inArm way := by
  induction way generalizing inArm with
  | nil => rfl
  | cons step way ih =>
    rw [total, total, total, ih, Weight.nesting_eq]
    omega

theorem nesting_eq (way : List (Kind × Turn)) : nesting way = guarded way + released way :=
  Weight.total_nesting_eq false way

/-! ## Heights -/

section

variable (weight : Weight)

mutual

def height (inArm : Bool) : Tree → Nat
  | ⟨kind, _, left, right, statements⟩ =>
    max (weight inArm kind .stop)
      (max (slotHeight (weight inArm kind .left) kind.isArm left)
        (max (slotHeight (weight inArm kind .right) kind.isArm right)
          (listHeight (weight inArm kind .statement) kind.isArm statements)))

/-- The height of a slot, with what the node above it counts. -/
def slotHeight (above : Nat) (inArm : Bool) : Option Tree → Nat
  | none => 0
  | some t => above + height inArm t

def listHeight (above : Nat) (inArm : Bool) : List Tree → Nat
  | [] => 0
  | t :: ts => max (above + height inArm t) (listHeight above inArm ts)

end

variable {weight}

theorem height_le_listHeight {above : Nat} {inArm : Bool} {ts : List Tree} {t : Tree}
    (h : t ∈ ts) : above + height weight inArm t ≤ listHeight weight above inArm ts := by
  induction h with
  | head => exact Nat.le_max_left _ _
  | tail _ _ ih => exact Nat.le_trans ih (Nat.le_max_right _ _)

theorem slotHeight_le {above bound : Nat} {inArm : Bool} {slot : Option Tree}
    (h : ∀ t ∈ slot, above + height weight inArm t ≤ bound) :
    slotHeight weight above inArm slot ≤ bound := by
  cases slot with
  | none => exact Nat.zero_le _
  | some t => exact h t rfl

theorem listHeight_le {above bound : Nat} {inArm : Bool} {ts : List Tree}
    (h : ∀ t ∈ ts, above + height weight inArm t ≤ bound) :
    listHeight weight above inArm ts ≤ bound := by
  induction ts with
  | nil => exact Nat.zero_le _
  | cons t ts ih =>
    have others := ih fun u hu => h u (List.mem_cons_of_mem t hu)
    exact Nat.max_le.mpr ⟨h t List.mem_cons_self, others⟩

/-- A height is bounded by what bounds it on every way on from the root. -/
theorem height_le {kind : Kind} {p : Location} {left right : Option Tree} {ss : List Tree}
    {inArm : Bool} {bound : Nat} (hstop : weight inArm kind .stop ≤ bound)
    (hleft : ∀ t ∈ left, weight inArm kind .left + height weight kind.isArm t ≤ bound)
    (hright : ∀ t ∈ right, weight inArm kind .right + height weight kind.isArm t ≤ bound)
    (hss : ∀ t ∈ ss, weight inArm kind .statement + height weight kind.isArm t ≤ bound) :
    height weight inArm ⟨kind, p, left, right, ss⟩ ≤ bound := by
  rw [height]
  exact Nat.max_le.mpr ⟨hstop, Nat.max_le.mpr ⟨slotHeight_le hleft,
    Nat.max_le.mpr ⟨slotHeight_le hright, listHeight_le hss⟩⟩⟩

/-- No way counts more than the height. -/
theorem Way.total_le_height {t : Tree} {way : List (Kind × Turn)} (h : Way t way) (inArm : Bool) :
    weight.total inArm way ≤ height weight inArm t := by
  induction h generalizing inArm with
  | @stop t _ =>
    obtain ⟨kind, p, left, right, ss⟩ := t
    simp only [Weight.total, height]
    omega
  | @left t u way hu _ ih =>
    obtain ⟨kind, p, left, right, ss⟩ := t
    cases hu
    have below := ih kind.isArm
    simp only [Weight.total, height, slotHeight]
    omega
  | @right t u way hu _ ih =>
    obtain ⟨kind, p, left, right, ss⟩ := t
    cases hu
    have below := ih kind.isArm
    simp only [Weight.total, height, slotHeight]
    omega
  | @statement t u way hu _ ih =>
    obtain ⟨kind, p, left, right, ss⟩ := t
    have below := ih kind.isArm
    have member : weight inArm kind .statement + height weight kind.isArm u ≤
        listHeight weight (weight inArm kind .statement) kind.isArm ss := height_le_listHeight hu
    simp only [Weight.total, height]
    omega

theorem exists_way : ∀ t : Tree, ∃ way, Way t way
  | ⟨_, _, some u, _, _⟩ =>
    have ⟨_, h⟩ := exists_way u
    ⟨_, .left rfl h⟩
  | ⟨_, _, none, some u, _⟩ =>
    have ⟨_, h⟩ := exists_way u
    ⟨_, .right rfl h⟩
  | ⟨_, _, none, none, u :: _⟩ =>
    have ⟨_, h⟩ := exists_way u
    ⟨_, .statement List.mem_cons_self h⟩
  | ⟨_, _, none, none, []⟩ => ⟨_, .stop rfl⟩

/-- What bounds all that a node and the ways below it count bounds the height below it, too. -/
theorem add_le_of_ways {t : Tree} {above bound : Nat} {inArm : Bool}
    (ih : ∀ bound, (∀ way, Way t way → weight.total inArm way ≤ bound) →
      height weight inArm t ≤ bound)
    (h : ∀ way, Way t way → above + weight.total inArm way ≤ bound) :
    above + height weight inArm t ≤ bound := by
  obtain ⟨way, hway⟩ := exists_way t
  have enough := h way hway
  have below := ih (bound - above) fun way hway => by
    have whole := h way hway
    omega
  omega

/-- The height is the least bound on what the ways count, if a node counts the least where a
way ends. -/
theorem height_le_of_ways
    (least : ∀ inArm kind turn, weight inArm kind .stop ≤ weight inArm kind turn) :
    ∀ (t : Tree) (inArm : Bool) (bound : Nat),
      (∀ way, Way t way → weight.total inArm way ≤ bound) → height weight inArm t ≤ bound
  | ⟨kind, p, left, right, ss⟩, inArm, bound, h => by
    refine height_le ?_ ?_ ?_ ?_
    · obtain ⟨way, hway⟩ := exists_way ⟨kind, p, left, right, ss⟩
      have whole := h way hway
      cases hway with
      | stop => exact Nat.le_trans (Nat.le_add_right _ _) whole
      | left => exact Nat.le_trans (least _ _ _) (Nat.le_trans (Nat.le_add_right _ _) whole)
      | right => exact Nat.le_trans (least _ _ _) (Nat.le_trans (Nat.le_add_right _ _) whole)
      | statement => exact Nat.le_trans (least _ _ _) (Nat.le_trans (Nat.le_add_right _ _) whole)
    · rintro u ⟨⟩
      exact add_le_of_ways (height_le_of_ways least u _) fun way hway => h _ (.left rfl hway)
    · rintro u ⟨⟩
      exact add_le_of_ways (height_le_of_ways least u _) fun way hway => h _ (.right rfl hway)
    · intro u hu
      exact add_le_of_ways (height_le_of_ways least u _) fun way hway => h _ (.statement hu hway)

/-- The height decides whether all ways are within a limit. -/
theorem nesting_le_iff_height {t : Tree} {limit : Nat} :
    (∀ way, Way t way → nesting way ≤ limit) ↔ height Weight.nesting false t ≤ limit := by
  constructor
  · exact height_le_of_ways (fun _ _ _ => Nat.le_refl _) t false limit
  · intro h way hway
    exact Nat.le_trans (hway.total_le_height false) h

end

end Quadrupler.Tree
