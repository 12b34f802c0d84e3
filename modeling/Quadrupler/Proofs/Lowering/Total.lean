import Quadrupler.Proofs.Lowering.Code
import Quadrupler.Proofs.Tree.Shape
set_option autoImplicit false

/-!
# Every program can be lowered

There is code for every tree that has the shape of a program, whatever the counters are.
-/

namespace Quadrupler.Lowering

open Quadrupler.Tree

theorem exists_emitsValue {e : Tree} (h : e.IsExpression) (c : Counters) :
    ∃ x code c', EmitsValue e c x code c' := by
  induction h generalizing c with
  | number => exact ⟨_, _, _, .number⟩
  | identifier => exact ⟨_, _, _, .identifier⟩
  | binary _ _ ihLeft ihRight =>
    obtain ⟨x, code₁, c₁, hleft⟩ := ihLeft c
    obtain ⟨y, code₂, c₂, hright⟩ := ihRight c₁
    exact ⟨_, _, _, .binary hleft hright⟩

/-- There is code for the piece, whatever the counters are. -/
def Emittable (piece : Piece) : Prop := ∀ c, ∃ code c', Emits piece c code c'

/-- There is code for the arms, whatever the counters and the label behind them are. -/
def EmittableArms (ts : List Tree) : Prop :=
  ∀ value done c, ∃ drawn code c', Emits (.arms value done ts drawn) c code c'

/-- There is code for the tree in its place; for an arm, before any other arms. -/
def EmittableAt : Place → Tree → Prop
  | .statement, t => Emittable (.statement t)
  | .arm, t => ∀ others, EmittableArms others → EmittableArms (t :: others)

theorem emittable_slot {slot : Option Tree} (h : ∀ t ∈ slot, Emittable (.statement t)) :
    Emittable (.slot slot) := by
  intro c
  cases slot with
  | none => exact ⟨_, _, .noSlot⟩
  | some t =>
    obtain ⟨code, c', emitted⟩ := h t rfl c
    exact ⟨_, _, .slot emitted⟩

theorem emittable_statements {ts : List Tree} (h : ∀ t ∈ ts, Emittable (.statement t)) :
    Emittable (.statements ts) := by
  induction ts with
  | nil => exact fun c => ⟨_, _, .noStatements⟩
  | cons t ts ih =>
    intro c
    obtain ⟨code₁, c₁, first⟩ := h t List.mem_cons_self c
    obtain ⟨code₂, c₂, others⟩ := ih (fun u hu => h u (List.mem_cons_of_mem t hu)) c₁
    exact ⟨_, _, .statements first others⟩

theorem emittable_arms {ts : List Tree} (h : ∀ t ∈ ts, EmittableAt .arm t) :
    EmittableArms ts := by
  induction ts with
  | nil => exact fun value done c => ⟨_, _, _, .noArms⟩
  | cons t ts ih => exact h t List.mem_cons_self ts (ih fun u hu => h u (List.mem_cons_of_mem t hu))

theorem emittable_loop {test body : Tree} {advance : Option Tree} (htest : test.IsExpression)
    (hbody : Emittable (.statement body)) (hadvance : Emittable (.slot advance)) :
    Emittable (.loop test body advance) := by
  intro c
  obtain ⟨x, code₁, c₁, tested⟩ := exists_emitsValue htest c.drawLabel
  obtain ⟨code₂, c₂, emittedBody⟩ := hbody c₁.drawLabel
  obtain ⟨code₃, c₃, advanced⟩ := hadvance c₂
  exact ⟨_, _, .loop tested emittedBody advanced⟩

theorem emittable_ifThen {p : Location} {test body : Tree} {others : List Tree}
    (companions : Companions others) (htest : test.IsExpression)
    (hbody : Emittable (.statement body)) (hother : Emittable (.slot (elseBody? others))) :
    Emittable (.statement ⟨.ifThen, p, some test, some body, others⟩) := by
  intro c
  obtain ⟨x, code₁, c₁, tested⟩ := exists_emitsValue htest c
  obtain ⟨code₂, c₂, emittedBody⟩ := hbody c₁.drawLabel
  obtain ⟨code₃, c₃, emittedOther⟩ := hother c₂.drawLabel
  exact ⟨_, _, .ifThen companions tested emittedBody emittedOther⟩

theorem emittableAt_of_shaped {place : Place} {t : Tree} (h : Shaped place t) :
    EmittableAt place t := by
  induction h with
  | assign he =>
    intro c
    obtain ⟨x, code, c', emitted⟩ := exists_emitsValue he c
    exact ⟨_, _, .assign emitted⟩
  | step => exact fun c => ⟨_, _, .step⟩
  | returning he =>
    intro c
    obtain ⟨x, code, c', emitted⟩ := exists_emitsValue he c
    exact ⟨_, _, .returning emitted⟩
  | ifThen htest _ _ ihBody =>
    exact emittable_ifThen .none htest ihBody (emittable_slot nofun)
  | ifElse htest _ _ _ _ ihBody ihOther =>
    refine emittable_ifThen .one htest ihBody (emittable_slot ?_)
    rintro t ⟨⟩
    exact ihOther
  | whileLoop htest _ _ ihBody =>
    intro c
    have noAdvance : Emittable (.slot none) := emittable_slot nofun
    obtain ⟨code, c', emitted⟩ := emittable_loop htest ihBody noAdvance c
    exact ⟨_, _, .whileLoop emitted⟩
  | @forLoop p test body first advance htest _ _ _ _ _ _ ihBody ihFirst ihAdvance =>
    intro c
    have slot : Emittable (.slot (some advance)) := emittable_slot (by rintro t ⟨⟩; exact ihAdvance)
    obtain ⟨code₁, c₁, emittedFirst⟩ := ihFirst c
    obtain ⟨code₂, c₂, emitted⟩ := emittable_loop htest ihBody slot c₁
    exact ⟨_, _, .forLoop emittedFirst emitted⟩
  | doLoop htest _ _ ihBody =>
    intro c
    obtain ⟨code₁, c₁, emittedBody⟩ := ihBody c.drawLabel
    obtain ⟨x, code₂, c₂, tested⟩ := exists_emitsValue htest c₁
    exact ⟨_, _, .doLoop emittedBody tested⟩
  | switch he _ ihArms =>
    intro c
    obtain ⟨x, code₁, c₁, emitted⟩ := exists_emitsValue he c
    obtain ⟨drawn, code₂, c₂, emittedArms⟩ := emittable_arms ihArms x none c₁
    exact ⟨_, _, .switch emitted emittedArms⟩
  | row hkind _ _ ihLeft ihRight =>
    intro c
    obtain ⟨code₁, c₁, first⟩ := emittable_slot ihLeft c
    obtain ⟨code₂, c₂, second⟩ := emittable_slot ihRight c₁
    exact ⟨_, _, .row hkind first second⟩
  | block _ ih =>
    intro c
    obtain ⟨code, c', emitted⟩ := emittable_statements ih c
    exact ⟨_, _, .block emitted⟩
  | empty => exact fun c => ⟨_, _, .empty⟩
  | expression he =>
    intro c
    obtain ⟨x, code, c', emitted⟩ := exists_emitsValue he c
    exact ⟨_, _, .expression emitted⟩
  | caseArm he _ _ ihBody =>
    intro others hothers value done c
    obtain ⟨x, code₁, c₁, emitted⟩ := exists_emitsValue he c
    obtain ⟨code₂, c₂, emittedBody⟩ := ihBody c₁.drawTemporary.drawLabel
    obtain ⟨drawn, code₃, c₃, emittedOthers⟩ :=
      hothers value (some (c₂.behind done)) (c₂.drawBehind done)
    exact ⟨_, _, _, .caseArm emitted emittedBody emittedOthers⟩
  | defaultArm _ _ ihBody =>
    intro others hothers value done c
    obtain ⟨code₁, c₁, emittedBody⟩ := ihBody c
    obtain ⟨drawn, code₂, c₂, emittedOthers⟩ :=
      hothers value (some (c₁.behind done)) (c₁.drawBehind done)
    exact ⟨_, _, _, .defaultArm emittedBody emittedOthers⟩

end Quadrupler.Lowering

namespace Quadrupler

theorem exists_lower_of_shaped {t : Tree} (h : t.Shaped .statement) :
    ∃ listing, lower t = .ok listing := by
  obtain ⟨code, c', emitted⟩ := Lowering.emittableAt_of_shaped h .zero
  exact ⟨code, lower_eq_ok_iff.mpr ⟨c', emitted⟩⟩

end Quadrupler
