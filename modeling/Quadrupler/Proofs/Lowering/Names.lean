import Quadrupler.Proofs.Lowering.Code
set_option autoImplicit false

/-!
# The names in the code of a tree

Code mentions variables and numbers as they are written.  Which ones can be seen from the tree: a
number or an identifier is an operand where its value is used.  It has no code where it stands alone
as a statement, and a switch without cases never looks at the value that it selects by.
-/

namespace Quadrupler

/-- The operands of a quadruple, which may be absent. -/
def Quadruple.operands (q : Quadruple) : List Operand := [q.first, q.second, q.result]

def Listing.operands (code : Listing) : List Operand := code.flatMap Quadruple.operands

/-- Some operand is written so. -/
def Listing.Mentions (code : Listing) (text : String) : Prop := .name text ∈ code.operands

namespace Tree

open Lowering (stepAmount)

/-- The arms compare the value of their switch. -/
def anyCase (arms : List Tree) : Bool := arms.any fun arm => arm.kind = .caseArm

mutual

/-- The numbers and identifiers that the code of a tree mentions, where its own value is used or
not. -/
def atoms (used : Bool) : Tree → List Kind
  | ⟨.number text, _, _, _, _⟩ => if used then [.number text] else []
  | ⟨.identifier name, _, _, _, _⟩ => if used then [.identifier name] else []
  | ⟨.binary _, _, left, right, _⟩ | ⟨.assign, _, left, right, _⟩ =>
    slotAtoms true left ++ slotAtoms true right
  | ⟨.step _, _, left, _, _⟩ => .number stepAmount :: slotAtoms true left
  | ⟨.returning, _, _, right, _⟩ => slotAtoms true right
  | ⟨.ifThen, _, left, right, others⟩ | ⟨.forLoop, _, left, right, others⟩ =>
    slotAtoms true left ++ slotAtoms false right ++ allAtoms others
  | ⟨.whileLoop, _, left, right, _⟩ | ⟨.doLoop, _, left, right, _⟩
  | ⟨.caseArm, _, left, right, _⟩ => slotAtoms true left ++ slotAtoms false right
  | ⟨.elseBranch, _, _, right, _⟩ | ⟨.defaultArm, _, _, right, _⟩ => slotAtoms false right
  | ⟨.switch, _, left, _, arms⟩ => slotAtoms (anyCase arms) left ++ allAtoms arms
  | ⟨.block, _, _, _, body⟩ => allAtoms body
  | ⟨.separator, _, left, right, _⟩ | ⟨.sequence, _, left, right, _⟩ =>
    slotAtoms false left ++ slotAtoms false right
  | ⟨.empty, _, _, _, _⟩ => []

def slotAtoms (used : Bool) : Option Tree → List Kind
  | none => []
  | some t => atoms used t

/-- What the code of several statements or arms mentions. -/
def allAtoms : List Tree → List Kind
  | [] => []
  | t :: ts => atoms false t ++ allAtoms ts

end

theorem atoms_row {t : Tree} (h : t.isSequence = true) (used : Bool) :
    t.atoms used = slotAtoms false t.left ++ slotAtoms false t.right := by
  obtain ⟨kind, p, left, right, ss⟩ := t
  cases kind <;> simp_all [isSequence, atoms]

/-- The code of the statement reads the variable or assigns it. -/
def Uses (t : Tree) (name : String) : Prop := .identifier name ∈ t.atoms false

instance (t : Tree) (name : String) : Decidable (t.Uses name) :=
  inferInstanceAs (Decidable (_ ∈ _))

end Tree

/-! ## Code and what it mentions -/

namespace Listing

variable {text : String}

@[simp] theorem mentions_nil : Mentions [] text ↔ False := by
  simp [Mentions, operands]

@[simp] theorem mentions_append (code others : Listing) :
    Mentions (code ++ others) text ↔ Mentions code text ∨ Mentions others text := by
  simp [Mentions, operands]

theorem mentions_cons (q : Quadruple) (code : Listing) :
    Mentions (q :: code) text ↔
      (.name text = q.first ∨ .name text = q.second ∨ .name text = q.result) ∨
        Mentions code text := by
  simp [Mentions, operands, Quadruple.operands, or_assoc]

@[simp] theorem mentions_binary (op : BinaryOp) (x y : Operand) (t : Temporary) (code : Listing) :
    Mentions (.binary op x y t :: code) text ↔
      (x = .name text ∨ y = .name text) ∨ Mentions code text := by
  simp [mentions_cons, Quadruple.binary, eq_comm]

@[simp] theorem mentions_assign (x : Operand) (name : String) (code : Listing) :
    Mentions (.assign x name :: code) text ↔
      (x = .name text ∨ name = text) ∨ Mentions code text := by
  simp [mentions_cons, Quadruple.assign, eq_comm]

@[simp] theorem mentions_ifFalse (x : Operand) (l : Label) (code : Listing) :
    Mentions (.ifFalse x l :: code) text ↔ x = .name text ∨ Mentions code text := by
  simp [mentions_cons, Quadruple.ifFalse, eq_comm]

@[simp] theorem mentions_ifTrue (x : Operand) (l : Label) (code : Listing) :
    Mentions (.ifTrue x l :: code) text ↔ x = .name text ∨ Mentions code text := by
  simp [mentions_cons, Quadruple.ifTrue, eq_comm]

@[simp] theorem mentions_returning (x : Operand) (code : Listing) :
    Mentions (.returning x :: code) text ↔ x = .name text ∨ Mentions code text := by
  simp [mentions_cons, Quadruple.returning, eq_comm]

@[simp] theorem mentions_goto (l : Label) (code : Listing) :
    Mentions (.goto l :: code) text ↔ Mentions code text := by
  simp [mentions_cons, Quadruple.goto]

@[simp] theorem mentions_label (l : Label) (code : Listing) :
    Mentions (.label l :: code) text ↔ Mentions code text := by
  simp [mentions_cons, Quadruple.label]

end Listing

namespace Lowering

open Quadrupler.Tree

variable {c c' : Counters} {code : Listing} {t : Tree} {value : Operand} {text : String}

/-- Some number or identifier is written so. -/
def Writes (kinds : List Kind) (text : String) : Prop := text ∈ kinds.map Kind.tag

@[simp] theorem writes_nil : Writes [] text ↔ False := by simp [Writes]

@[simp] theorem writes_append (kinds others : List Kind) :
    Writes (kinds ++ others) text ↔ Writes kinds text ∨ Writes others text := by
  simp [Writes]

@[simp] theorem writes_number (number : String) (kinds : List Kind) :
    Writes (.number number :: kinds) text ↔ number = text ∨ Writes kinds text := by
  simp [Writes, Kind.tag, eq_comm]

@[simp] theorem writes_identifier (name : String) (kinds : List Kind) :
    Writes (.identifier name :: kinds) text ↔ name = text ∨ Writes kinds text := by
  simp [Writes, Kind.tag, eq_comm]

/-- What an expression mentions where its value is used. -/
theorem EmitsValue.mentions_iff (h : EmitsValue t c value code c') :
    Writes (t.atoms true) text ↔ value = .name text ∨ code.Mentions text := by
  induction h with
  | number => simp [atoms]
  | identifier => simp [atoms]
  | binary _ _ left right => simp [atoms, slotAtoms, left, right, or_left_comm, or_comm]

theorem EmitsValue.mentions_unused_iff (h : EmitsValue t c value code c') :
    Writes (t.atoms false) text ↔ code.Mentions text := by
  have used : Writes (t.atoms true) text ↔ value = .name text ∨ code.Mentions text :=
    h.mentions_iff
  cases h with
  | number => simp [atoms]
  | identifier => simp [atoms]
  | binary left right => simpa [atoms] using used

/-- What the code of a piece mentions.  Arms compare the value of their switch, as far as there
are cases. -/
def Piece.Mentions (text : String) : Piece → Prop
  | .statement t => Writes (t.atoms false) text
  | .slot t => Writes (slotAtoms false t) text
  | .statements ts => Writes (allAtoms ts) text
  | .loop test body advance =>
    Writes (test.atoms true ++ body.atoms false ++ slotAtoms false advance) text
  | .arms value _ ts _ => value = .name text ∧ anyCase ts = true ∨ Writes (allAtoms ts) text

theorem Companions.allAtoms_eq {others : List Tree} (h : Companions others) :
    allAtoms others = slotAtoms false (elseBody? others) := by
  cases h with
  | none => rfl
  | one => simp [allAtoms, slotAtoms, elseBody?, atoms]

/-- The code of a piece mentions what the piece does. -/
theorem mentions_iff_of_emits {piece : Piece} (h : Emits piece c code c') :
    piece.Mentions text ↔ code.Mentions text := by
  induction h with
  | assign he => simp [Piece.Mentions, atoms, slotAtoms, he.mentions_iff, or_left_comm, or_comm]
  | step => simp [Piece.Mentions, atoms, slotAtoms, or_comm]
  | returning he => simp [Piece.Mentions, atoms, slotAtoms, he.mentions_iff, or_comm]
  | ifThen hothers htest _ _ ihBody ihOther =>
    simp only [Piece.Mentions] at ihBody ihOther
    simp [Piece.Mentions, atoms, slotAtoms, hothers.allAtoms_eq, htest.mentions_iff, ihBody,
      ihOther, or_assoc, or_left_comm, or_comm]
  | whileLoop _ ih => simpa [Piece.Mentions, atoms, slotAtoms] using ih
  | forLoop _ _ ihFirst ihLoop =>
    simp only [Piece.Mentions] at ihFirst ihLoop
    simp [Piece.Mentions, atoms, slotAtoms, allAtoms, ← ihFirst, ← ihLoop, or_assoc, or_left_comm,
      or_comm]
  | doLoop _ htest ihBody =>
    simp only [Piece.Mentions] at ihBody
    simp [Piece.Mentions, atoms, slotAtoms, htest.mentions_iff, ihBody, or_comm]
  | @switch p e right ts _ _ _ _ _ _ _ he _ ihArms =>
    simp only [Piece.Mentions] at ihArms
    cases compares : anyCase ts with
    | true =>
      simp [Piece.Mentions, atoms, slotAtoms, ← ihArms, compares, he.mentions_iff, or_assoc,
        or_comm]
    | false => simp [Piece.Mentions, atoms, slotAtoms, ← ihArms, compares, he.mentions_unused_iff]
  | row hkind _ _ ihLeft ihRight =>
    simp only [Piece.Mentions] at ihLeft ihRight
    simp [Piece.Mentions, atoms_row hkind, ihLeft, ihRight]
  | block _ ih => simpa [Piece.Mentions, atoms] using ih
  | empty => simp [Piece.Mentions, atoms]
  | expression he => exact he.mentions_unused_iff
  | noSlot => simp [Piece.Mentions, slotAtoms]
  | slot _ ih => simpa [Piece.Mentions, slotAtoms] using ih
  | noStatements => simp [Piece.Mentions, allAtoms]
  | statements _ _ ihFirst ihOthers =>
    simp only [Piece.Mentions] at ihFirst ihOthers
    simp [Piece.Mentions, allAtoms, ihFirst, ihOthers]
  | loop htest _ _ ihBody ihAdvance =>
    simp only [Piece.Mentions] at ihBody ihAdvance
    simp [Piece.Mentions, htest.mentions_iff, ihBody, ihAdvance, or_assoc, or_left_comm, or_comm]
  | noArms => simp [Piece.Mentions, allAtoms, anyCase]
  | @caseArm value _ _ _ _ _ _ _ _ _ _ _ _ _ _ _ he _ _ ihBody ihOthers =>
    simp only [Piece.Mentions] at ihBody ihOthers
    by_cases same : value = .name text
    · simp [Piece.Mentions, allAtoms, anyCase, same]
    · simp only [same, false_and, false_or] at ihOthers
      simp [Piece.Mentions, allAtoms, atoms, slotAtoms, he.mentions_iff, ihBody, ihOthers, same,
        or_assoc, or_left_comm]
  | defaultArm _ _ ihBody ihOthers =>
    simp only [Piece.Mentions] at ihBody ihOthers
    simp [Piece.Mentions, allAtoms, anyCase, atoms, slotAtoms, ihBody, ← ihOthers, or_left_comm]

end Lowering

end Quadrupler
