import Quadrupler.Proofs.Lowering.Code
import Quadrupler.Quadruple.Flow
set_option autoImplicit false

/-!
# The labels of emitted code

A piece defines each label that is drawn for it exactly once and no other label
(`definitions_of_emits`).  The label behind a switch is drawn by an arm and defined behind
the last one, so it is missing from the code of the arms alone; `pending` makes up for it.
In a listing that defines a label at most once, `position?` finds the label wherever it
stands.
-/

namespace Quadrupler

namespace Quadruple

@[simp] theorem label?_binary (op : BinaryOp) (x y : Operand) (t : Temporary) :
    (binary op x y t).label? = none := rfl

@[simp] theorem label?_assign (x : Operand) (name : String) :
    (assign x name).label? = none := rfl

@[simp] theorem label?_ifFalse (x : Operand) (l : Label) :
    (ifFalse x l).label? = none := rfl

@[simp] theorem label?_ifTrue (x : Operand) (l : Label) :
    (ifTrue x l).label? = none := rfl

@[simp] theorem label?_goto (l : Label) : (goto l).label? = none := rfl

@[simp] theorem label?_returning (x : Operand) : (returning x).label? = none := rfl

@[simp] theorem label?_label (l : Label) : (label l).label? = some l := rfl

end Quadruple

/-! ## How often a label is defined -/

/-- How often the code defines a label. -/
def Listing.definitions (code : Listing) (l : Label) : Nat :=
  code.countP fun q => q.label? = some l

namespace Listing

@[simp] theorem definitions_nil (l : Label) : definitions [] l = 0 := rfl

@[simp] theorem definitions_cons (q : Quadruple) (code : Listing) (l : Label) :
    definitions (q :: code) l = definitions code l + if q.label? = some l then 1 else 0 := by
  simp [definitions, List.countP_cons]

@[simp] theorem definitions_append (code₁ code₂ : Listing) (l : Label) :
    definitions (code₁ ++ code₂) l = definitions code₁ l + definitions code₂ l :=
  List.countP_append

theorem one_le_definitions {code : Listing} {i : Nat} {q : Quadruple} {l : Label}
    (hq : code[i]? = some q) (hl : q.label? = some l) : 1 ≤ definitions code l := by
  refine List.countP_pos_iff.mpr ⟨q, List.mem_of_getElem? hq, ?_⟩
  simpa using hl

/-- A label that is defined once is found where it stands. -/
theorem position?_eq_some {code : Listing} {i : Nat} {l : Label}
    (once : definitions code l ≤ 1) (hi : code[i]? = some (.label l)) :
    code.position? l = some i := by
  induction code generalizing i with
  | nil => simp at hi
  | cons q code ih =>
    rw [definitions_cons] at once
    cases i with
    | zero =>
      obtain rfl : q = .label l := by simpa using hi
      simp [position?, List.findIdx?_cons]
    | succ i =>
      rw [List.getElem?_cons_succ] at hi
      have here : 1 ≤ definitions code l := one_le_definitions hi rfl
      have elsewhere : q.label? ≠ some l := by
        intro hq
        rw [if_pos hq] at once
        omega
      have found := ih (by omega) hi
      simp only [position?] at found ⊢
      simp [List.findIdx?_cons, elsewhere, found]

end Listing

namespace Counters

@[simp] theorem labels_drawTemporary (c : Counters) :
    c.drawTemporary.labels = c.labels := rfl

@[simp] theorem labels_drawLabel (c : Counters) : c.drawLabel.labels = c.labels + 1 := rfl

@[simp] theorem behind_none (c : Counters) : c.behind none = c.label := rfl

@[simp] theorem behind_some (c : Counters) (l : Label) : c.behind (some l) = l := rfl

end Counters

namespace Lowering

/-! ## Labels drawn and labels defined -/

/-- The label is defined as often as it is drawn between the counters: once if it lies between
them, and never otherwise. -/
structure Accounts (l : Label) (c c' : Counters) (defined : Nat) : Prop where
  le : c.labels ≤ c'.labels
  eq : defined = if c.labels ≤ l.index ∧ l.index < c'.labels then 1 else 0

namespace Accounts

variable {l : Label} {c c₁ c' : Counters} {defined defined' : Nat}

theorem congr (h : Accounts l c c' defined) (same : defined' = defined) :
    Accounts l c c' defined' :=
  same ▸ h

/-- Where no label is drawn, none is to be defined. -/
theorem idle (same : c'.labels = c.labels) : Accounts l c c' 0 where
  le := Nat.le_of_eq same.symm
  eq := by
    rw [same, if_neg]
    omega

theorem trans (h : Accounts l c c₁ defined) (h' : Accounts l c₁ c' defined') :
    Accounts l c c' (defined + defined') where
  le := Nat.le_trans h.le h'.le
  eq := by
    have le := h.le
    have le' := h'.le
    rw [h.eq, h'.eq]
    split
    all_goals split
    all_goals split
    all_goals omega

/-- A label that is drawn is to be defined. -/
theorem drawLabel : Accounts l c c.drawLabel (Listing.definitions [.label c.label] l) where
  le := Nat.le_succ c.labels
  eq := by
    have drawn : (Quadruple.label c.label).label? = some l ↔
        c.labels ≤ l.index ∧ l.index < c.drawLabel.labels := by
      rw [Quadruple.label?_label, Option.some.injEq, Counters.labels_drawLabel]
      obtain ⟨index⟩ := l
      rw [Counters.label, Label.mk.injEq]
      show c.labels = index ↔ c.labels ≤ index ∧ index < c.labels + 1
      omega
    simp only [Listing.definitions_cons, Listing.definitions_nil, Nat.zero_add, drawn]

end Accounts

/-- Expressions draw and define no labels. -/
theorem EmitsValue.accounts {t : Tree} {c c' : Counters} {value : Operand} {code : Listing}
    (h : EmitsValue t c value code c') (l : Label) : Accounts l c c' (code.definitions l) := by
  induction h with
  | number => exact .idle rfl
  | identifier => exact .idle rfl
  | binary _ _ ihLeft ihRight =>
    refine (ihLeft.trans (ihRight.trans (.idle (Counters.labels_drawTemporary _)))).congr ?_
    simp

/-- Whether a piece has drawn the label and left it to the switch to define it. -/
def pending (l : Label) : Piece → Nat
  | .arms _ done _ drawn => if done = none ∧ drawn = some l then 1 else 0
  | _ => 0

/-- An arm owes the label behind the switch if it is the one that draws it. -/
theorem accounts_behind {l : Label} {c : Counters} (value : Operand) (done : Option Label)
    (ts : List Tree) :
    Accounts l c (c.drawBehind done) (pending l (.arms value done ts (some (c.behind done)))) := by
  cases done with
  | none => exact Accounts.drawLabel.congr (by simp [pending])
  | some _ => exact (Accounts.idle rfl).congr (by simp [pending])

/-- The label behind a switch stays the same once it has been drawn. -/
theorem drawn_eq_of_emits {piece : Piece} {c c' : Counters} {code : Listing}
    (h : Emits piece c code c') {value : Operand} {l : Label} {ts : List Tree}
    {drawn : Option Label} (hpiece : piece = .arms value (some l) ts drawn) :
    drawn = some l := by
  induction h generalizing l ts with
  | noArms =>
    cases hpiece
    rfl
  | caseArm _ _ _ _ ih =>
    cases hpiece
    exact ih rfl
  | defaultArm _ _ _ ih =>
    cases hpiece
    exact ih rfl
  | _ => cases hpiece

/-- Between its counters, a piece defines every label once, one that is still pending apart.  What
is drawn for it one after the other adds up. -/
theorem definitions_of_emits {piece : Piece} {c c' : Counters} {code : Listing}
    (h : Emits piece c code c') (l : Label) :
    Accounts l c c' (code.definitions l + pending l piece) := by
  induction h with
  | assign he => exact (he.accounts l).congr (by simp [pending])
  | step => exact (Accounts.idle (Counters.labels_drawTemporary _)).congr (by simp [pending])
  | returning he => exact (he.accounts l).congr (by simp [pending])
  | ifThen _ htest _ _ ihBody ihOther =>
    have tested := (htest.accounts l).trans .drawLabel
    have run := ihBody.trans (Accounts.drawLabel.trans ihOther)
    refine (tested.trans run).congr ?_
    simp [pending]
    omega
  | whileLoop _ ih => exact ih
  | forLoop _ _ ihFirst ihLoop =>
    refine (ihFirst.trans ihLoop).congr ?_
    simp [pending]
  | doLoop _ htest ihBody =>
    have run := Accounts.drawLabel.trans ihBody
    refine (run.trans (htest.accounts l)).congr ?_
    simp [pending]
    omega
  | @switch _ _ _ _ _ _ _ _ drawn _ _ he _ ihArms =>
    have run := (he.accounts l).trans ihArms
    cases drawn with
    | none =>
      refine (run.trans .drawLabel).congr ?_
      simp [pending, Nat.add_assoc]
    | some _ =>
      refine run.congr ?_
      simp [pending]
  | row _ _ _ ihLeft ihRight =>
    refine (ihLeft.trans ihRight).congr ?_
    simp [pending]
  | block _ ih => exact ih
  | empty => exact .idle rfl
  | expression he => exact he.accounts l
  | noSlot => exact .idle rfl
  | slot _ ih => exact ih
  | noStatements => exact .idle rfl
  | statements _ _ ihFirst ihOthers =>
    refine (ihFirst.trans ihOthers).congr ?_
    simp [pending]
  | loop htest _ _ ihBody ihAdvance =>
    have tested := Accounts.drawLabel.trans (htest.accounts l)
    have run := Accounts.drawLabel.trans (ihBody.trans ihAdvance)
    refine (tested.trans run).congr ?_
    simp [pending]
    omega
  | @noArms _ done _ =>
    cases done with
    | none => exact .idle rfl
    | some _ => exact (Accounts.idle rfl).congr (by simp [pending])
  | @caseArm value _ done drawn _ _ _ _ others _ _ _ _ _ _ _ he _ hothers ihBody ihOthers =>
    -- Only the first arm draws the label behind the switch; the others keep it.
    obtain rfl := drawn_eq_of_emits hothers rfl
    have compared := (he.accounts l).trans (.idle (Counters.labels_drawTemporary _))
    have run := Accounts.drawLabel.trans (ihBody.trans (accounts_behind value done others))
    refine (compared.trans (run.trans ihOthers)).congr ?_
    simp [pending]
    omega
  | @defaultArm value done drawn _ _ _ _ others _ _ _ _ _ _ hothers ihBody ihOthers =>
    obtain rfl := drawn_eq_of_emits hothers rfl
    have run := ihBody.trans (accounts_behind value done others)
    refine (run.trans ihOthers).congr ?_
    simp [pending]
    omega

/-- No label is defined twice in the code of a tree. -/
theorem definitions_le_one {t : Tree} {c c' : Counters} {code : Listing}
    (h : Emits (.statement t) c code c') (l : Label) : code.definitions l ≤ 1 := by
  have whole := (definitions_of_emits h l).2
  simp only [pending] at whole
  split at whole <;> omega

end Lowering

end Quadrupler
