import Mathlib.Data.List.Induction
import Quadrupler.Proofs.Tree.Shape
import Quadrupler.Tree.Normal
set_option autoImplicit false

/-!
# Simplification computes normal forms

Whatever a tree looks like, what simplification makes of it are statements that are normal and
neither empty nor in a row, and hanging such statements on a chain gives a normal tree.  In the
other direction, a normal tree is the chain of its statements already.  So the normal trees are
exactly those that simplification leaves as they are.
-/

namespace Quadrupler.Tree

/-! ## Normal nodes -/

theorem isNormalSlot_iff {slot : Option Tree} :
    isNormalSlot slot = true ↔ ∀ u ∈ slot, u.isNormal = true := by
  cases slot with
  | none => simp [isNormalSlot]
  | some t => simp [isNormalSlot]

theorem areNormal_iff {ts : List Tree} : areNormal ts = true ↔ ∀ u ∈ ts, u.isNormal = true := by
  induction ts with
  | nil => simp [areNormal]
  | cons t ts ih => simp [areNormal, ih]

/-- A tree is normal if its root and its children are. -/
theorem isNormal_iff {t : Tree} :
    t.isNormal = true ↔
      t.isNormalRoot = true ∧ (∀ u ∈ t.left, u.isNormal = true) ∧
        (∀ u ∈ t.right, u.isNormal = true) ∧ ∀ u ∈ t.statements, u.isNormal = true := by
  obtain ⟨kind, p, left, right, ss⟩ := t
  simp only [isNormal, Bool.and_eq_true, isNormalSlot_iff, areNormal_iff, and_assoc]

theorem Solid.isNormalRoot {t : Tree} (h : t.Solid) : t.isNormalRoot = true := by
  obtain ⟨notEmpty, notSequence⟩ := h
  unfold Tree.isNormalRoot
  unfold isSequence at notSequence
  split <;> simp_all

/-- Neither separators nor empty statements are normal. -/
theorem solid_of_isNormalRoot {t : Tree} (h : t.isNormalRoot = true) (other : t.kind ≠ .sequence) :
    t.Solid := by
  unfold Tree.isNormalRoot at h
  unfold Solid isSequence
  split at h <;> simp_all

/-! ## Chains -/

/-- The node that hangs a statement behind what comes before it. -/
def joint (before next : Tree) : Tree :=
  { kind := .sequence, location := next.location, left := some before, right := some next }

theorem isNormal_joint {before next : Tree} (hbefore : before.isNormal = true)
    (hnext : next.isNormal = true) (solid : next.Solid) : (joint before next).isNormal = true := by
  refine isNormal_iff.mpr ⟨?_, ?_, ?_, ?_⟩
  · simp [isNormalRoot, joint, solid.2]
  · simpa [joint] using hbefore
  · simpa [joint] using hnext
  · simp [joint]

/-- A normal sequence hangs a statement behind something. -/
theorem exists_joint_of_isNormalRoot {t : Tree} (h : t.isNormalRoot = true)
    (hkind : t.kind = .sequence) :
    ∃ before next, t = joint before next ∧ next.isSequence = false := by
  obtain ⟨kind, p, left, right, ss⟩ := t
  obtain rfl : kind = .sequence := hkind
  rcases left with _ | before
  · simp [isNormalRoot] at h
  rcases right with _ | next
  · simp [isNormalRoot] at h
  simp only [isNormalRoot, Bool.and_eq_true, Bool.not_eq_true', decide_eq_true_eq,
    List.isEmpty_iff] at h
  obtain ⟨⟨single, rfl⟩, rfl⟩ := h
  exact ⟨before, next, rfl, single⟩

theorem chain_concat (ts : List Tree) (t : Tree) :
    chain (ts ++ [t]) = some (((chain ts).map (joint · t)).getD t) := by
  cases ts with
  | nil => rfl
  | cons first ts =>
    simp only [chain, row, List.cons_append, List.foldl_append, Option.map_some, Option.getD_some]
    rfl

/-- A chain of normal statements is normal. -/
theorem isNormal_of_chain {ts : List Tree} (h : ∀ t ∈ ts, t.Solid ∧ t.isNormal = true) {u : Tree}
    (hu : chain ts = some u) : u.isNormal = true := by
  induction ts using List.reverseRecOn generalizing u with
  | nil => cases hu
  | append_singleton ts t ih =>
    obtain ⟨solid, normal⟩ := h t (by simp)
    have before : ∀ s ∈ ts, s.Solid ∧ s.isNormal = true :=
      fun s hs => h s (List.mem_append_left [t] hs)
    rw [chain_concat] at hu
    cases hts : chain ts with
    | none =>
      rw [hts] at hu
      cases hu
      exact normal
    | some first =>
      rw [hts] at hu
      cases hu
      exact isNormal_joint (ih before hts) normal solid

/-! ## Simplified trees are normal -/

mutual

theorem normal_of_mem_statementsOf : ∀ t : Tree,
    ∀ u ∈ statementsOf t, u.Solid ∧ u.isNormal = true
  | ⟨kind, p, left, right, ss⟩ => by
    intro u hu
    have first := normal_of_mem_statementsOfSlot left
    have second := normal_of_mem_statementsOfSlot right
    by_cases row : isSequence ⟨kind, p, left, right, ss⟩ = true
    · rw [statementsOf_row row] at hu
      rcases List.mem_append.mp hu with hu | hu
      · exact first u hu
      · exact second u hu
    · by_cases empty : kind = .empty
      · subst empty
        simp [statementsOf] at hu
      · -- The node stays, and its children are chains of what has been simplified.
        have solid : Solid ⟨kind, p, left, right, ss⟩ := ⟨empty, by simpa using row⟩
        rw [solid.statementsOf_eq, List.mem_singleton] at hu
        subst hu
        refine ⟨solid.simplified, isNormal_iff.mpr ⟨solid.simplified.isNormalRoot, ?_, ?_, ?_⟩⟩
        · exact fun u hu => isNormal_of_chain first hu
        · exact fun u hu => isNormal_of_chain second hu
        · exact normal_of_mem_simplifyAll ss

theorem normal_of_mem_statementsOfSlot : ∀ slot : Option Tree,
    ∀ u ∈ statementsOfSlot slot, u.Solid ∧ u.isNormal = true
  | none => by simp [statementsOfSlot]
  | some t => by
    rw [statementsOfSlot]
    exact normal_of_mem_statementsOf t

theorem normal_of_mem_simplifyAll : ∀ ts : List Tree, ∀ u ∈ simplifyAll ts, u.isNormal = true
  | [] => by simp [simplifyAll]
  | t :: ts => by
    intro u hu
    rw [simplifyAll, List.mem_append, Option.mem_toList] at hu
    rcases hu with hu | hu
    · exact isNormal_of_chain (normal_of_mem_statementsOf t) hu
    · exact normal_of_mem_simplifyAll ts u hu

end

theorem isNormal_simplify (t : Tree) : t.simplify.isNormal = true := by
  unfold simplify
  cases h : chain (statementsOf t) with
  | none => rfl
  | some u => exact isNormal_of_chain (normal_of_mem_statementsOf t) h

/-! ## Normal trees stay -/

mutual

/-- A normal tree is the chain of its statements. -/
theorem chain_statementsOf_of_isNormal : ∀ t : Tree, t.isNormal = true →
    chain (statementsOf t) = some t
  | ⟨kind, p, left, right, ss⟩ => by
    intro h
    obtain ⟨root, hleft, hright, hss⟩ := isNormal_iff.mp h
    have first := chain_statementsOfSlot_of_isNormal left hleft
    have second := chain_statementsOfSlot_of_isNormal right hright
    have third := simplifyAll_of_isNormal ss hss
    by_cases hkind : kind = .sequence
    · obtain ⟨before, next, same, single⟩ := exists_joint_of_isNormalRoot root hkind
      cases same
      have solid : next.Solid := by
        refine solid_of_isNormalRoot (isNormal_iff.mp (hright next rfl)).1 ?_
        intro sequence
        simp [isSequence, sequence] at single
      have last : statementsOfSlot (some next) = [next] := by
        rw [solid.chain_eq] at second
        rw [statementsOfSlot, solid.statementsOf_eq, Option.some.inj second]
      rw [statementsOf, last, chain_concat, first]
      rfl
    · have solid : Solid ⟨kind, p, left, right, ss⟩ := solid_of_isNormalRoot root hkind
      rw [solid.statementsOf_eq, simplified_mk, first, second, third]
      rfl

theorem chain_statementsOfSlot_of_isNormal : ∀ slot : Option Tree,
    (∀ u ∈ slot, u.isNormal = true) → chain (statementsOfSlot slot) = slot
  | none => by
    intro _
    rw [statementsOfSlot]
    rfl
  | some t => by
    intro h
    rw [statementsOfSlot]
    exact chain_statementsOf_of_isNormal t (h t rfl)

theorem simplifyAll_of_isNormal : ∀ ts : List Tree,
    (∀ u ∈ ts, u.isNormal = true) → simplifyAll ts = ts
  | [] => by
    intro _
    rw [simplifyAll]
  | t :: ts => by
    intro h
    obtain ⟨first, others⟩ := List.forall_mem_cons.mp h
    rw [simplifyAll, chain_statementsOf_of_isNormal t first, simplifyAll_of_isNormal ts others]
    rfl

end

theorem simplify_eq_self {t : Tree} (h : t.isNormal = true) : t.simplify = t := by
  unfold simplify
  rw [chain_statementsOf_of_isNormal t h]
  rfl

/-- Simplification makes every tree normal and leaves those as they are that are normal, and
no others; so simplifying once more changes nothing. -/
theorem simplify_normalizes :
    (∀ t : Tree, t.simplify.isNormal = true) ∧
      (∀ t : Tree, t.isNormal = true ↔ t.simplify = t) ∧
        ∀ t : Tree, t.simplify.simplify = t.simplify := by
  refine ⟨isNormal_simplify, ?_, ?_⟩
  · intro t
    constructor
    · exact simplify_eq_self
    · intro same
      rw [← same]
      exact isNormal_simplify t
  · intro t
    exact simplify_eq_self (isNormal_simplify t)

end Quadrupler.Tree
