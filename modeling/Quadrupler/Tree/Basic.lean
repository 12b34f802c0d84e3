import Quadrupler.Location
import Quadrupler.Operator
set_option autoImplicit false

/-!
# Syntax trees

Specification: sections 3 and 10.4 (nodes, their tags and children).

A tree is a kind, a place, and three slots: a left child, a right child and a list
of statements.  The slots do not depend on the kind, so a tree may be ill-formed (an
assignment without a target, say); what reads a tree decides what it asks of it.

The kinds use the slots as follows.

* `binary`, `assign`: both children; `step`: the variable on the left;
  `returning`: the value on the right.
* `ifThen`: condition and block, and an `elseBranch` among the statements, whose block
  is its right child.
* `whileLoop`, `doLoop`, `forLoop`: condition and body; a `forLoop` has the two
  statements of its head as statements.
* `switch`: the discriminant on the left, its arms as statements; a `caseArm` has its
  constant and its body, a `defaultArm` its body on the right.
* `block`: statements.  `separator` and `sequence`: what comes first on the left and
  what comes next on the right.
-/

namespace Quadrupler

namespace Tree

/-- What a tree stands for at its root. -/
inductive Kind where
  | number (text : String)
  | identifier (name : String)
  | binary (op : BinaryOp)
  | assign
  | step (op : StepOp)
  | returning
  | ifThen
  | elseBranch
  | whileLoop
  | doLoop
  | forLoop
  | switch
  | caseArm
  | defaultArm
  | block
  /-- two statements in a row, as they are read -/
  | separator
  /-- two statements in a row, after simplification -/
  | sequence
  | empty
  deriving DecidableEq, Repr, Inhabited

/-- The word or symbol that stands for a kind. -/
def Kind.tag : Kind → String
  | .number text => text
  | .identifier name => name
  | .binary op => op.symbol
  | .assign => "="
  | .step op => op.symbol
  | .returning => "return"
  | .ifThen => "if"
  | .elseBranch => "else"
  | .whileLoop => "while"
  | .doLoop => "do"
  | .forLoop => "for"
  | .switch => "switch"
  | .caseArm => "case"
  | .defaultArm => "default"
  | .block => "block"
  | .separator | .empty => ";"
  | .sequence => "sequence"

end Tree

/-- A node with all that is below it. -/
structure Tree where
  kind : Tree.Kind
  location : Location
  left : Option Tree := none
  right : Option Tree := none
  statements : List Tree := []
  deriving Repr, Inhabited

namespace Tree

/-! ## Building -/

/-- A number, as it is written. -/
def number (text : String) (location : Location) : Tree := { kind := .number text, location }

/-- A variable. -/
def identifier (name : String) (location : Location) : Tree :=
  { kind := .identifier name, location }

/-- An operator between two operands. -/
def binary (op : BinaryOp) (left right : Tree) (location : Location) : Tree :=
  { kind := .binary op, location, left := some left, right := some right }

/-- Statements in braces. -/
def block (statements : List Tree) (location : Location) : Tree :=
  { kind := .block, location, statements }

/-- Statements in a row as one tree that grows to the left.  Every node that joins two is
of the given kind and at the place of the statement on its right. -/
def row (kind : Kind) : List Tree → Option Tree
  | [] => none
  | first :: others =>
    some (others.foldl
      (fun before next =>
        { kind, location := next.location, left := some before, right := some next })
      first)

/-! ## Reading -/

/-- The tag of the node. -/
def tag (t : Tree) : String := t.kind.tag

/-- Numbers and identifiers. -/
def isLeaf (t : Tree) : Bool :=
  match t.kind with
  | .number _ | .identifier _ => true
  | _ => false

/-- Statements in a row, read or simplified. -/
def isSequence (t : Tree) : Bool :=
  match t.kind with
  | .separator | .sequence => true
  | _ => false

/-- The children in the order in which they are shown. -/
def children (t : Tree) : List Tree := t.left.toList ++ t.right.toList ++ t.statements

/-- The first `else` among the statements. -/
def else? (t : Tree) : Option Tree := t.statements.find? fun s => s.kind = .elseBranch

/-! ## Equality -/

mutual

/-- Same kind, same place, and the same in every slot. -/
def same : Tree → Tree → Bool
  | ⟨k, p, l, r, ss⟩, ⟨k', p', l', r', ss'⟩ =>
    decide (k = k') && decide (p = p') && sameSlot l l' && sameSlot r r' && sameAll ss ss'

/-- Both slots are empty, or they hold the same. -/
def sameSlot : Option Tree → Option Tree → Bool
  | none, none => true
  | some t, some u => same t u
  | _, _ => false

/-- As many trees, and each the same. -/
def sameAll : List Tree → List Tree → Bool
  | [], [] => true
  | t :: ts, u :: us => same t u && sameAll ts us
  | _, _ => false

end

mutual

theorem same_iff : ∀ t u : Tree, same t u = true ↔ t = u
  | ⟨k, p, l, r, ss⟩, ⟨k', p', l', r', ss'⟩ => by
    simp only [same, Bool.and_eq_true, decide_eq_true_eq, sameSlot_iff l l', sameSlot_iff r r',
      sameAll_iff ss ss', Tree.mk.injEq, and_assoc]

theorem sameSlot_iff : ∀ l m : Option Tree, sameSlot l m = true ↔ l = m
  | none, none => by simp [sameSlot]
  | none, some _ => by simp [sameSlot]
  | some _, none => by simp [sameSlot]
  | some t, some u => by simp [sameSlot, same_iff t u]

theorem sameAll_iff : ∀ ts us : List Tree, sameAll ts us = true ↔ ts = us
  | [], [] => by simp [sameAll]
  | [], _ :: _ => by simp [sameAll]
  | _ :: _, [] => by simp [sameAll]
  | t :: ts, u :: us => by simp [sameAll, same_iff t u, sameAll_iff ts us]

end

instance : DecidableEq Tree := fun t u => decidable_of_iff _ (same_iff t u)

end Tree

end Quadrupler
