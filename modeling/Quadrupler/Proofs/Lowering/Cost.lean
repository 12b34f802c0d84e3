import Quadrupler.Proofs.Lowering.Price
set_option autoImplicit false

/-!
# What a tree costs

Every node that lowering visits has its price in quadruples, temporaries and labels, and the code
of a tree takes what its nodes cost together, wherever it stands.
-/

namespace Quadrupler

/-- So many quadruples, temporaries and labels. -/
@[ext] structure Cost where
  quadruples : Int
  temporaries : Int
  labels : Int
  deriving DecidableEq, Repr

namespace Cost

instance : Zero Cost := ⟨⟨0, 0, 0⟩⟩

instance : Add Cost :=
  ⟨fun a b => ⟨a.quadruples + b.quadruples, a.temporaries + b.temporaries, a.labels + b.labels⟩⟩

@[simp] theorem quadruples_zero : (0 : Cost).quadruples = 0 := rfl

@[simp] theorem temporaries_zero : (0 : Cost).temporaries = 0 := rfl

@[simp] theorem labels_zero : (0 : Cost).labels = 0 := rfl

@[simp] theorem quadruples_add (a b : Cost) :
    (a + b).quadruples = a.quadruples + b.quadruples := rfl

@[simp] theorem temporaries_add (a b : Cost) :
    (a + b).temporaries = a.temporaries + b.temporaries := rfl

@[simp] theorem labels_add (a b : Cost) : (a + b).labels = a.labels + b.labels := rfl

instance : AddCommMonoid Cost where
  add_assoc a b c := by ext <;> simp [Int.add_assoc]
  zero_add a := by ext <;> simp
  add_zero a := by ext <;> simp
  add_comm a b := by ext <;> simp [Int.add_comm]
  nsmul := nsmulRec

end Cost

namespace Tree

/-- What lowering a node takes, apart from its children. -/
def Kind.cost : Kind → Cost
  | .number _ | .identifier _ | .empty | .elseBranch | .block | .separator | .sequence => 0
  | .binary _ => ⟨1, 1, 0⟩
  | .assign | .returning | .defaultArm => ⟨1, 0, 0⟩
  | .step _ => ⟨2, 1, 0⟩
  | .ifThen | .whileLoop | .forLoop => ⟨4, 0, 2⟩
  | .doLoop => ⟨2, 0, 1⟩
  | .switch => ⟨1, 0, 1⟩
  | .caseArm => ⟨4, 1, 1⟩

theorem cost_sequence {t : Tree} (h : t.isSequence = true) : t.kind.cost = 0 := by
  obtain ⟨kind, p, left, right, ss⟩ := t
  cases kind <;> simp_all [isSequence, Kind.cost]

end Tree

namespace Lowering

open Quadrupler.Tree

/-- Code between two counters takes what is given. -/
structure Takes (c : Counters) (code : Listing) (c' : Counters) (cost : Cost) : Prop where
  quadruples : (code.length : Int) = cost.quadruples
  temporaries : (c'.temporaries : Int) = c.temporaries + cost.temporaries
  labels : (c'.labels : Int) = c.labels + cost.labels

namespace Takes

variable {c c₁ c₂ : Counters} {code others : Listing} {k k' : Cost}

theorem nil (c : Counters) : Takes c [] c 0 := by
  constructor <;> simp

theorem cons {q : Quadruple} (h : Takes c code c₁ k) : Takes c (q :: code) c₁ (⟨1, 0, 0⟩ + k) := by
  obtain ⟨quadruples, temporaries, labels⟩ := h
  constructor <;> simp <;> omega

theorem append (h : Takes c code c₁ k) (h' : Takes c₁ others c₂ k') :
    Takes c (code ++ others) c₂ (k + k') := by
  obtain ⟨q₁, t₁, l₁⟩ := h
  obtain ⟨q₂, t₂, l₂⟩ := h'
  constructor <;> simp <;> omega

theorem drawTemporary (h : Takes c.drawTemporary code c₁ k) : Takes c code c₁ (⟨0, 1, 0⟩ + k) := by
  obtain ⟨quadruples, temporaries, labels⟩ := h
  simp only [Counters.drawTemporary] at temporaries labels
  constructor <;> simp <;> omega

theorem drawLabel (h : Takes c.drawLabel code c₁ k) : Takes c code c₁ (⟨0, 0, 1⟩ + k) := by
  obtain ⟨quadruples, temporaries, labels⟩ := h
  simp only [Counters.drawLabel] at temporaries labels
  constructor <;> simp <;> omega

theorem congr (h : Takes c code c₁ k) (same : k = k') : Takes c code c₁ k' := same ▸ h

end Takes

theorem EmitsValue.takes {t : Tree} {c c' : Counters} {value : Operand} {code : Listing}
    (h : EmitsValue t c value code c') : Takes c code c' (t.total Kind.cost) := by
  induction h with
  | number => exact .nil _
  | identifier => exact .nil _
  | binary _ _ left right =>
    refine ((left.append right).append (Takes.nil _).drawTemporary.cons).congr ?_
    ext <;> simp [total, slotTotal, Kind.cost] <;> omega

/-- What is left to pay for the label behind a switch. -/
def unpaid (done : Option Label) : Cost := ⟨0, 0, if done.isSome then 0 else 1⟩

@[simp] theorem unpaid_none : unpaid none = ⟨0, 0, 1⟩ := rfl

@[simp] theorem unpaid_some (l : Label) : unpaid (some l) = 0 := rfl

@[simp] theorem quadruples_unpaid (done : Option Label) : (unpaid done).quadruples = 0 := rfl

@[simp] theorem temporaries_unpaid (done : Option Label) : (unpaid done).temporaries = 0 := rfl

theorem Takes.drawBehind {c c₁ : Counters} {code : Listing} {k : Cost} {done : Option Label}
    (h : Takes (c.drawBehind done) code c₁ k) : Takes c code c₁ (unpaid done + k) := by
  cases done with
  | none => exact h.drawLabel
  | some l => exact h.congr (zero_add k).symm

/-- What a piece costs; arms draw the label behind their switch, where it has not been drawn. -/
def Piece.cost : Piece → Cost
  | .statement t => t.total Kind.cost
  | .slot t => slotTotal Kind.cost t
  | .statements ts => allTotal Kind.cost ts
  | .loop test body advance =>
    ⟨4, 0, 2⟩ + test.total Kind.cost + body.total Kind.cost + slotTotal Kind.cost advance
  | .arms _ done ts drawn =>
    allTotal Kind.cost ts + ⟨0, 0, (unpaid done).labels - (unpaid drawn).labels⟩

/-- The code of a piece takes what the piece costs. -/
theorem takes_of_emits {piece : Piece} {c c' : Counters} {code : Listing}
    (h : Emits piece c code c') : Takes c code c' piece.cost := by
  induction h with
  | assign he =>
    refine (he.takes.append (Takes.nil _).cons).congr ?_
    ext
    all_goals simp [Piece.cost, total, slotTotal, Kind.cost]
    omega
  | step => exact (Takes.nil _).drawTemporary.cons.cons
  | returning he =>
    refine (he.takes.append (Takes.nil _).cons).congr ?_
    ext
    all_goals simp [Piece.cost, total, slotTotal, Kind.cost]
    omega
  | ifThen hothers htest _ _ ihBody ihOther =>
    refine (((htest.takes.append ihBody.drawLabel.cons).append ihOther.drawLabel.cons.cons).append
      (Takes.nil _).cons).congr ?_
    have alternative : allTotal Kind.cost _ = slotTotal Kind.cost _ := hothers.allTotal_eq rfl
    ext <;> simp [Piece.cost, total, slotTotal, alternative, Kind.cost] <;> omega
  | whileLoop _ ih => exact ih.congr (by simp [Piece.cost, total, slotTotal, Kind.cost])
  | forLoop _ _ ihFirst ihLoop =>
    refine (ihFirst.append ihLoop).congr ?_
    ext <;> simp [Piece.cost, total, slotTotal, allTotal, Kind.cost] <;> omega
  | doLoop _ htest ihBody =>
    refine ((ihBody.drawLabel.cons.append htest.takes).append (Takes.nil _).cons).congr ?_
    ext <;> simp [Piece.cost, total, slotTotal, Kind.cost] <;> omega
  | switch he _ ihArms =>
    refine ((he.takes.append ihArms).append (Takes.nil _).drawBehind.cons).congr ?_
    ext <;> simp [Piece.cost, total, slotTotal, Kind.cost] <;> omega
  | row hkind _ _ ihLeft ihRight =>
    refine (ihLeft.append ihRight).congr ?_
    rw [Piece.cost, Piece.cost, Piece.cost, total_row hkind, cost_sequence hkind, zero_add]
  | block _ ih => exact ih.congr (by simp [Piece.cost, total, Kind.cost])
  | empty => exact .nil _
  | expression he => exact he.takes
  | noSlot => exact .nil _
  | slot _ ih => exact ih
  | noStatements => exact .nil _
  | statements _ _ ihFirst ihOthers => exact ihFirst.append ihOthers
  | loop htest _ _ ihBody ihAdvance =>
    refine (((htest.takes.drawLabel.cons.append ihBody.drawLabel.cons).append ihAdvance).append
      (Takes.nil _).cons.cons).congr ?_
    ext <;> simp [Piece.cost] <;> omega
  | noArms =>
    refine (Takes.nil _).congr ?_
    ext <;> simp [Piece.cost, allTotal]
  | caseArm he _ _ ihBody ihOthers =>
    refine ((he.takes.append ihBody.drawLabel.drawTemporary.cons.cons).append
      ihOthers.drawBehind.cons.cons).congr ?_
    ext <;> simp [Piece.cost, total, slotTotal, allTotal, Kind.cost] <;> omega
  | defaultArm _ _ ihBody ihOthers =>
    refine (ihBody.append ihOthers.drawBehind.cons).congr ?_
    ext <;> simp [Piece.cost, total, slotTotal, allTotal, Kind.cost] <;> omega

end Lowering

end Quadrupler
