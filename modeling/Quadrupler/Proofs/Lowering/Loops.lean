import Mathlib.Algebra.Group.Nat.Defs
import Quadrupler.Proofs.Lowering.Labels
import Quadrupler.Proofs.Lowering.Price
import Quadrupler.Proofs.Quadruple.Direction
set_option autoImplicit false

/-!
# Only loops jump back

The code of a piece defines the labels that its tests jump to behind them, except where a loop
returns to its start.  The label behind a switch is named by the arms before it is defined, and
all arms stand before it.  So the jumps that go back are as many as the loops.
-/

namespace Quadrupler

variable {listing : Listing}

/-- Which nodes are loops, counted. -/
def Tree.Kind.loops : Tree.Kind → Nat
  | .whileLoop | .doLoop | .forLoop => 1
  | .number _ | .identifier _ | .binary _ | .assign | .step _ | .returning | .ifThen | .elseBranch
  | .switch | .caseArm | .defaultArm | .block | .separator | .sequence | .empty => 0

theorem Tree.loops_sequence {t : Tree} (h : t.isSequence = true) : t.kind.loops = 0 := by
  obtain ⟨kind, p, left, right, ss⟩ := t
  cases kind <;> simp_all [isSequence, Kind.loops]

namespace Lowering

open Quadrupler.Tree Quadrupler.Listing

/-! ## Expressions -/

theorem EmitsValue.isValue {e : Tree} {c c' : Counters} {x : Operand} {code : Listing}
    (h : EmitsValue e c x code c') : x.isValue = true := by
  cases h <;> rfl

theorem EmitsValue.loops_eq_zero {e : Tree} {c c' : Counters} {x : Operand} {code : Listing}
    (h : EmitsValue e c x code c') : e.total Kind.loops = 0 := by
  induction h with
  | number => rfl
  | identifier => rfl
  | binary _ _ left right => simp [total, slotTotal, Kind.loops, left, right]

/-- Expressions do not jump. -/
theorem EmitsValue.directed {e : Tree} {c c' : Counters} {x : Operand} {code : Listing}
    (h : EmitsValue e c x code c') (i : Nat) : Directed listing i code 0 := by
  induction h generalizing i with
  | number => exact .nil
  | identifier => exact .nil
  | binary hleft hright ihLeft ihRight =>
    have operands := (ihLeft i).after (ihRight _)
    exact operands.after (.pass (.binary hleft.isValue hright.isValue) .nil)

/-! ## All pieces -/

/-- How many loops are lowered in a piece. -/
def Piece.loops : Piece → Nat
  | .statement t => t.total Kind.loops
  | .slot t => slotTotal Kind.loops t
  | .statements ts => allTotal Kind.loops ts
  | .loop test body advance =>
    test.total Kind.loops + (body.total Kind.loops + (slotTotal Kind.loops advance + 1))
  | .arms _ _ ts _ => allTotal Kind.loops ts

/-- Arms need a value to compare with, and the label that their bodies jump to stands right behind
them.  Other pieces need nothing. -/
def Piece.Awaits (listing : Listing) (stop : Nat) : Piece → Prop
  | .arms value _ _ drawn =>
    value.isValue = true ∧ ∀ l, drawn = some l → listing.position? l = some stop
  | .statement _ | .slot _ | .statements _ | .loop _ _ _ => True

/-- The jumps of a piece that go back are as many as its loops. -/
theorem directed_of_emits (once : ∀ l, listing.definitions l ≤ 1) {piece : Piece}
    {c c' : Counters} {code : Listing} (h : Emits piece c code c') {i : Nat}
    (placed : listing.Placed i code) (awaits : piece.Awaits listing (i + code.length)) :
    Directed listing i code piece.loops := by
  induction h generalizing i with
  | assign he =>
    simp only [Piece.loops, total, slotTotal, Kind.loops, he.loops_eq_zero]
    exact (he.directed i).after (.pass (.assign he.isValue) .nil)
  | step => exact .pass (.binary rfl rfl) (.pass (.assign rfl) .nil)
  | returning he =>
    simp only [Piece.loops, total, slotTotal, Kind.loops, he.loops_eq_zero]
    exact (he.directed i).after (.pass (.returning he.isValue) .nil)
  | ifThen hothers htest _ _ ihBody ihOther =>
    have alternative : allTotal Kind.loops _ = slotTotal Kind.loops _ := hothers.allTotal_eq rfl
    simp only [Piece.loops, total, slotTotal, Kind.loops, htest.loops_eq_zero, alternative,
      Nat.zero_add, List.append_assoc, List.cons_append, placed_append, placed_cons] at placed ⊢
    obtain ⟨-, -, body, -, mark, other, markDone, -⟩ := placed
    have toOther := position?_eq_some (once _) mark
    have toDone := position?_eq_some (once _) markDone
    refine (htest.directed i).after (.pass (.ifFalse htest.isValue toOther (by omega)) ?_)
    refine (ihBody body trivial).append (.pass (.ahead toDone (by omega)) (.pass .label ?_))
    exact (ihOther other trivial).append (.pass .label .nil)
  | @whileLoop p test body ss _ _ _ _ ih =>
    have count : total Kind.loops ⟨.whileLoop, p, some test, some body, ss⟩ =
        Piece.loops (.loop test body none) := by
      simp only [Piece.loops, total, slotTotal, Kind.loops]
      omega
    rw [Piece.loops, count]
    exact ih placed trivial
  | @forLoop p test body first advance _ _ _ _ _ _ _ ihFirst ihLoop =>
    obtain ⟨placed, behind⟩ := placed_append.mp placed
    have count : total Kind.loops ⟨.forLoop, p, some test, some body, [first, advance]⟩ =
        first.total Kind.loops + Piece.loops (.loop test body (some advance)) := by
      simp only [Piece.loops, total, slotTotal, allTotal, Kind.loops]
      omega
    rw [Piece.loops, count]
    exact (ihFirst placed trivial).append (ihLoop behind trivial)
  | doLoop _ htest ihBody =>
    simp only [Piece.loops, total, slotTotal, Kind.loops, htest.loops_eq_zero,
      Nat.add_comm 1, List.append_assoc, List.cons_append, placed_append, placed_cons] at placed ⊢
    obtain ⟨mark, body, -⟩ := placed
    have toStart := position?_eq_some (once _) mark
    refine .pass .label ((ihBody body trivial).append ((htest.directed _).after ?_))
    exact .turn (.ifTrue htest.isValue toStart (by omega)) .nil
  | switch he _ ihArms =>
    simp only [Piece.loops, total, slotTotal, Kind.loops, he.loops_eq_zero, Nat.zero_add,
      List.append_assoc, placed_append, placed_cons] at placed ⊢
    obtain ⟨-, arms, mark, -⟩ := placed
    refine (he.directed i).after ((ihArms arms ⟨he.isValue, ?_⟩).append (.pass .label .nil))
    rintro l rfl
    exact position?_eq_some (once l) mark
  | row hkind _ _ ihLeft ihRight =>
    obtain ⟨left, right⟩ := placed_append.mp placed
    rw [Piece.loops, total_row hkind, loops_sequence hkind, Nat.zero_add]
    exact (ihLeft left trivial).append (ihRight right trivial)
  | block _ ih =>
    rw [Piece.loops, total, Kind.loops, Nat.zero_add]
    exact ih placed trivial
  | empty => exact .nil
  | expression he =>
    rw [Piece.loops, he.loops_eq_zero]
    exact he.directed i
  | noSlot => exact .nil
  | slot _ ih => exact ih placed trivial
  | noStatements => exact .nil
  | statements _ _ ihFirst ihOthers =>
    obtain ⟨first, others⟩ := placed_append.mp placed
    exact (ihFirst first trivial).append (ihOthers others trivial)
  | loop htest _ _ ihBody ihAdvance =>
    simp only [Piece.loops, htest.loops_eq_zero, Nat.zero_add, List.append_assoc, List.cons_append,
      placed_append, placed_cons] at placed ⊢
    obtain ⟨mark, -, -, body, advance, -, markDone, -⟩ := placed
    have toStart := position?_eq_some (once _) mark
    have toDone := position?_eq_some (once _) markDone
    refine .pass .label ((htest.directed _).after ?_)
    refine .pass (.ifFalse htest.isValue toDone (by omega)) ((ihBody body trivial).append ?_)
    refine (ihAdvance advance trivial).append ?_
    -- The start stands before the whole loop, its end right behind this jump.
    exact .turn (.back toStart (by omega)) (.pass .label .nil)
  | noArms => exact .nil
  | caseArm he _ hothers ihBody ihOthers =>
    obtain ⟨value, toDone⟩ := awaits
    simp only [Piece.loops, allTotal, total, slotTotal, Kind.loops, he.loops_eq_zero, Nat.zero_add,
      List.append_assoc, List.cons_append, List.length_append, List.length_cons, placed_append,
      placed_cons] at placed toDone ⊢
    obtain ⟨-, -, -, body, -, mark, others⟩ := placed
    have toNext := position?_eq_some (once _) mark
    -- Whether this arm draws the label behind the switch or an earlier one has, it stands there.
    have out := toDone _ (drawn_eq_of_emits hothers rfl)
    refine (he.directed i).after (.pass (.binary value he.isValue) ?_)
    refine .pass (.ifFalse rfl toNext (by omega)) ((ihBody body trivial).append ?_)
    refine .pass (.ahead out (by omega)) (.pass .label (ihOthers others ⟨value, ?_⟩))
    intro l drawn
    rw [toDone l drawn]
    congr 1
    omega
  | defaultArm _ hothers ihBody ihOthers =>
    obtain ⟨value, toDone⟩ := awaits
    simp only [Piece.loops, allTotal, total, slotTotal, Kind.loops, Nat.zero_add,
      List.length_append, List.length_cons, placed_append, placed_cons] at placed toDone ⊢
    obtain ⟨body, -, others⟩ := placed
    have out := toDone _ (drawn_eq_of_emits hothers rfl)
    refine (ihBody body trivial).append (.pass (.ahead out (by omega)) ?_)
    refine ihOthers others ⟨value, ?_⟩
    intro l drawn
    rw [toDone l drawn]
    congr 1
    omega

end Lowering

end Quadrupler
