import Quadrupler.Tree.Simplify
set_option autoImplicit false

/-!
# Trees of a program

A tree has the shape of a program when every node has the children its kind asks for.  The
shape is kept by simplification.  What could go wrong is that a child vanishes because
nothing but empty statements is left of it, so the shape asks for bodies, and for the
statements in the head of a loop, that are no empty statements and no statements in a row:
of such a node simplification keeps kind and place.
-/

namespace Quadrupler.Tree

/-- Numbers, identifiers, and operators between two operands. -/
inductive IsExpression : Tree → Prop where
  | number {text : String} {p : Location} {l r : Option Tree} {ss : List Tree} :
      IsExpression ⟨.number text, p, l, r, ss⟩
  | identifier {name : String} {p : Location} {l r : Option Tree} {ss : List Tree} :
      IsExpression ⟨.identifier name, p, l, r, ss⟩
  | binary {op : BinaryOp} {p : Location} {left right : Tree} {ss : List Tree} :
      IsExpression left → IsExpression right →
      IsExpression ⟨.binary op, p, some left, some right, ss⟩

/-- Neither an empty statement nor statements in a row. -/
def Solid (t : Tree) : Prop := t.kind ≠ .empty ∧ t.isSequence = false

/-- Where a tree may stand: as a statement, or as an arm of a switch. -/
inductive Place where
  | statement
  | arm

inductive Shaped : Place → Tree → Prop where
  | assign {p q : Location} {name : String} {l r : Option Tree} {e : Tree} {ss us : List Tree} :
      IsExpression e →
      Shaped .statement ⟨.assign, p, some ⟨.identifier name, q, l, r, us⟩, some e, ss⟩
  | step {op : StepOp} {p q : Location} {name : String} {l r right : Option Tree}
      {ss us : List Tree} :
      Shaped .statement ⟨.step op, p, some ⟨.identifier name, q, l, r, us⟩, right, ss⟩
  | returning {p : Location} {left : Option Tree} {e : Tree} {ss : List Tree} :
      IsExpression e → Shaped .statement ⟨.returning, p, left, some e, ss⟩
  | ifThen {p : Location} {test body : Tree} :
      IsExpression test → body.Solid → Shaped .statement body →
      Shaped .statement ⟨.ifThen, p, some test, some body, []⟩
  | ifElse {p q : Location} {test body alternative : Tree} {left : Option Tree} {us : List Tree} :
      IsExpression test → body.Solid → Shaped .statement body → alternative.Solid →
      Shaped .statement alternative →
      Shaped .statement
        ⟨.ifThen, p, some test, some body, [⟨.elseBranch, q, left, some alternative, us⟩]⟩
  | whileLoop {p : Location} {test body : Tree} {ss : List Tree} :
      IsExpression test → body.Solid → Shaped .statement body →
      Shaped .statement ⟨.whileLoop, p, some test, some body, ss⟩
  | forLoop {p : Location} {test body first advance : Tree} :
      IsExpression test → body.Solid → Shaped .statement body → first.Solid →
      Shaped .statement first → advance.Solid → Shaped .statement advance →
      Shaped .statement ⟨.forLoop, p, some test, some body, [first, advance]⟩
  | doLoop {p : Location} {test body : Tree} {ss : List Tree} :
      IsExpression test → body.Solid → Shaped .statement body →
      Shaped .statement ⟨.doLoop, p, some test, some body, ss⟩
  | switch {p : Location} {e : Tree} {right : Option Tree} {ts : List Tree} :
      IsExpression e → (∀ t ∈ ts, Shaped .arm t) →
      Shaped .statement ⟨.switch, p, some e, right, ts⟩
  | row {t : Tree} :
      t.isSequence = true → (∀ u ∈ t.left, Shaped .statement u) →
      (∀ u ∈ t.right, Shaped .statement u) → Shaped .statement t
  | block {p : Location} {left right : Option Tree} {ts : List Tree} :
      (∀ t ∈ ts, Shaped .statement t) → Shaped .statement ⟨.block, p, left, right, ts⟩
  | empty {p : Location} {left right : Option Tree} {ss : List Tree} :
      Shaped .statement ⟨.empty, p, left, right, ss⟩
  | expression {t : Tree} : IsExpression t → Shaped .statement t
  | caseArm {p : Location} {e body : Tree} {ss : List Tree} :
      IsExpression e → body.Solid → Shaped .statement body →
      Shaped .arm ⟨.caseArm, p, some e, some body, ss⟩
  | defaultArm {p : Location} {left : Option Tree} {body : Tree} {ss : List Tree} :
      body.Solid → Shaped .statement body →
      Shaped .arm ⟨.defaultArm, p, left, some body, ss⟩

/-! ## Rows -/

theorem shaped_foldl {before : Tree} {ts : List Tree} (first : Shaped .statement before)
    (others : ∀ t ∈ ts, Shaped .statement t) {kind : Kind}
    (hkind : kind = .separator ∨ kind = .sequence) :
    Shaped .statement (ts.foldl
      (fun before next =>
        { kind, location := next.location, left := some before, right := some next }) before) := by
  induction ts generalizing before with
  | nil => exact first
  | cons t ts ih =>
    refine ih (.row ?_ ?_ ?_) fun u hu => others u (List.mem_cons_of_mem t hu)
    · obtain rfl | rfl := hkind <;> rfl
    · rintro u ⟨⟩
      exact first
    · rintro u ⟨⟩
      exact others _ List.mem_cons_self

/-- Statements in a row have the shape of a program if each of them has. -/
theorem shaped_row {kind : Kind} (hkind : kind = .separator ∨ kind = .sequence) {ts : List Tree}
    (h : ∀ t ∈ ts, Shaped .statement t) {u : Tree} (hu : row kind ts = some u) :
    Shaped .statement u := by
  cases ts with
  | nil => cases hu
  | cons t ts =>
    cases hu
    exact shaped_foldl (h t List.mem_cons_self) (fun u hu => h u (List.mem_cons_of_mem t hu)) hkind

/-! ## Simplification -/

/-- The tree with its parts simplified. -/
def simplified (t : Tree) : Tree :=
  ⟨t.kind, t.location, chain (statementsOfSlot t.left), chain (statementsOfSlot t.right),
    simplifyAll t.statements⟩

theorem simplified_mk (kind : Kind) (p : Location) (left right : Option Tree) (ss : List Tree) :
    simplified ⟨kind, p, left, right, ss⟩ =
      ⟨kind, p, chain (statementsOfSlot left), chain (statementsOfSlot right), simplifyAll ss⟩ :=
  rfl

theorem solid_identifier {name : String} {p : Location} {l r : Option Tree} {ss : List Tree} :
    Solid ⟨.identifier name, p, l, r, ss⟩ :=
  ⟨nofun, rfl⟩

theorem solid_elseBranch {p : Location} {l r : Option Tree} {ss : List Tree} :
    Solid ⟨.elseBranch, p, l, r, ss⟩ :=
  ⟨nofun, rfl⟩

theorem Solid.statementsOf_eq {t : Tree} (h : t.Solid) : statementsOf t = [t.simplified] := by
  obtain ⟨kind, p, left, right, ss⟩ := t
  cases kind <;> simp_all [Solid, isSequence, statementsOf, simplified]

theorem Solid.simplified {t : Tree} (h : t.Solid) : t.simplified.Solid := h

theorem Solid.chain_eq {t : Tree} (h : t.Solid) :
    chain (statementsOfSlot (some t)) = some t.simplified := by
  rw [statementsOfSlot, h.statementsOf_eq]
  rfl

theorem Solid.simplifyAll_cons {t : Tree} {ts : List Tree} (h : t.Solid) :
    simplifyAll (t :: ts) = t.simplified :: simplifyAll ts := by
  rw [simplifyAll, h.statementsOf_eq]
  rfl

theorem statementsOf_row {t : Tree} (h : t.isSequence = true) :
    statementsOf t = statementsOfSlot t.left ++ statementsOfSlot t.right := by
  obtain ⟨kind, p, left, right, ss⟩ := t
  cases kind <;> simp_all [isSequence, statementsOf]

theorem mem_statementsOfSlot {slot : Option Tree} {u : Tree} (h : u ∈ statementsOfSlot slot) :
    ∃ t ∈ slot, u ∈ statementsOf t := by
  cases slot with
  | none => simp [statementsOfSlot] at h
  | some t => exact ⟨t, rfl, h⟩

theorem mem_simplifyAll {ts : List Tree} {u : Tree} (h : u ∈ simplifyAll ts) :
    ∃ t ∈ ts, chain (statementsOf t) = some u := by
  induction ts with
  | nil => cases h
  | cons t ts ih =>
    rw [simplifyAll, List.mem_append, Option.mem_toList] at h
    obtain here | behind := h
    · exact ⟨t, List.mem_cons_self, here⟩
    · obtain ⟨s, hs, hu⟩ := ih behind
      exact ⟨s, List.mem_cons_of_mem t hs, hu⟩

theorem IsExpression.solid {e : Tree} (h : e.IsExpression) : e.Solid := by
  cases h <;> exact ⟨nofun, rfl⟩

theorem IsExpression.simplified {e : Tree} (h : e.IsExpression) : e.simplified.IsExpression := by
  induction h with
  | number => exact .number
  | identifier => exact .identifier
  | binary hleft hright ihLeft ihRight =>
    rw [simplified_mk, hleft.solid.chain_eq, hright.solid.chain_eq]
    exact .binary ihLeft ihRight

theorem Shaped.solid_of_arm {t : Tree} (h : Shaped .arm t) : t.Solid := by
  cases h <;> exact ⟨nofun, rfl⟩

/-- All that simplification makes of the tree is shaped for its place. -/
def StaysShaped (place : Place) (t : Tree) : Prop := ∀ u ∈ statementsOf t, Shaped place u

theorem StaysShaped.simplified {place : Place} {t : Tree} (h : StaysShaped place t)
    (solid : t.Solid) : Shaped place t.simplified := by
  refine h t.simplified ?_
  rw [solid.statementsOf_eq]
  exact List.mem_singleton_self _

theorem staysShaped_of_simplified {place : Place} {t : Tree} (solid : t.Solid)
    (h : Shaped place t.simplified) : StaysShaped place t := by
  intro u hu
  rw [solid.statementsOf_eq, List.mem_singleton] at hu
  exact hu ▸ h

theorem Shaped.staysShaped {place : Place} {t : Tree} (h : Shaped place t) :
    StaysShaped place t := by
  induction h with
  | assign he =>
    refine staysShaped_of_simplified ⟨nofun, rfl⟩ ?_
    rw [simplified_mk, solid_identifier.chain_eq, he.solid.chain_eq]
    exact .assign he.simplified
  | step =>
    refine staysShaped_of_simplified ⟨nofun, rfl⟩ ?_
    rw [simplified_mk, solid_identifier.chain_eq]
    exact .step
  | returning he =>
    refine staysShaped_of_simplified ⟨nofun, rfl⟩ ?_
    rw [simplified_mk, he.solid.chain_eq]
    exact .returning he.simplified
  | ifThen htest hbody _ ihBody =>
    refine staysShaped_of_simplified ⟨nofun, rfl⟩ ?_
    rw [simplified_mk, htest.solid.chain_eq, hbody.chain_eq, simplifyAll]
    exact .ifThen htest.simplified hbody.simplified (ihBody.simplified hbody)
  | ifElse htest hbody _ hother _ ihBody ihOther =>
    refine staysShaped_of_simplified ⟨nofun, rfl⟩ ?_
    rw [simplified_mk, htest.solid.chain_eq, hbody.chain_eq,
      solid_elseBranch.simplifyAll_cons, simplifyAll, simplified_mk, hother.chain_eq]
    exact .ifElse htest.simplified hbody.simplified (ihBody.simplified hbody) hother.simplified
      (ihOther.simplified hother)
  | whileLoop htest hbody _ ihBody =>
    refine staysShaped_of_simplified ⟨nofun, rfl⟩ ?_
    rw [simplified_mk, htest.solid.chain_eq, hbody.chain_eq]
    exact .whileLoop htest.simplified hbody.simplified (ihBody.simplified hbody)
  | forLoop htest hbody _ hfirst _ hadvance _ ihBody ihFirst ihAdvance =>
    refine staysShaped_of_simplified ⟨nofun, rfl⟩ ?_
    rw [simplified_mk, htest.solid.chain_eq, hbody.chain_eq, hfirst.simplifyAll_cons,
      hadvance.simplifyAll_cons, simplifyAll]
    exact .forLoop htest.simplified hbody.simplified (ihBody.simplified hbody) hfirst.simplified
      (ihFirst.simplified hfirst) hadvance.simplified (ihAdvance.simplified hadvance)
  | doLoop htest hbody _ ihBody =>
    refine staysShaped_of_simplified ⟨nofun, rfl⟩ ?_
    rw [simplified_mk, htest.solid.chain_eq, hbody.chain_eq]
    exact .doLoop htest.simplified hbody.simplified (ihBody.simplified hbody)
  | switch he harms ihArms =>
    refine staysShaped_of_simplified ⟨nofun, rfl⟩ ?_
    rw [simplified_mk, he.solid.chain_eq]
    refine .switch he.simplified fun u hu => ?_
    obtain ⟨t, ht, same⟩ := mem_simplifyAll hu
    have solid := (harms t ht).solid_of_arm
    cases solid.chain_eq.symm.trans same
    exact (ihArms t ht).simplified solid
  | @row t hkind _ _ ihLeft ihRight =>
    intro u hu
    rw [statementsOf_row hkind, List.mem_append] at hu
    obtain hu | hu := hu
    · obtain ⟨s, hs, hu⟩ := mem_statementsOfSlot hu
      exact ihLeft s hs u hu
    · obtain ⟨s, hs, hu⟩ := mem_statementsOfSlot hu
      exact ihRight s hs u hu
  | block _ ih =>
    refine staysShaped_of_simplified ⟨nofun, rfl⟩ ?_
    rw [simplified_mk]
    refine .block fun u hu => ?_
    obtain ⟨t, ht, same⟩ := mem_simplifyAll hu
    exact shaped_row (.inr rfl) (ih t ht) same
  | empty =>
    intro u hu
    simp [statementsOf] at hu
  | expression he => exact staysShaped_of_simplified he.solid (.expression he.simplified)
  | caseArm he hbody _ ihBody =>
    refine staysShaped_of_simplified ⟨nofun, rfl⟩ ?_
    rw [simplified_mk, he.solid.chain_eq, hbody.chain_eq]
    exact .caseArm he.simplified hbody.simplified (ihBody.simplified hbody)
  | defaultArm hbody _ ihBody =>
    refine staysShaped_of_simplified ⟨nofun, rfl⟩ ?_
    rw [simplified_mk, hbody.chain_eq]
    exact .defaultArm hbody.simplified (ihBody.simplified hbody)

/-- Simplification keeps the shape of a program. -/
theorem Shaped.simplify {t : Tree} (h : Shaped .statement t) : Shaped .statement t.simplify := by
  rw [Tree.simplify]
  cases hchain : chain (statementsOf t) with
  | none => exact .block fun _ member => (List.not_mem_nil member).elim
  | some u => exact shaped_row (.inr rfl) h.staysShaped hchain

end Quadrupler.Tree
