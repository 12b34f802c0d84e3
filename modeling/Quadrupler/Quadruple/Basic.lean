import Quadrupler.Operator
set_option autoImplicit false

/-!
# Quadruples

Specification: sections 3 and 10.7 (quadruples, their operators and operands).

One instruction: an operation, two operands and a result, each of which may be absent.
Values live in named variables and in numbered temporaries; jumps go to numbered labels.
A quadruple may combine its parts in ways that make no sense; see `Listing.check`.
-/

namespace Quadrupler

/-- A numbered place for an intermediate value. -/
structure Temporary where
  index : Nat
  deriving DecidableEq, Repr, Inhabited

/-- A numbered destination of jumps. -/
structure Label where
  index : Nat
  deriving DecidableEq, Repr, Inhabited

/-- How a temporary is written. -/
def Temporary.name (t : Temporary) : String := s!"t{t.index}"

/-- How a label is written. -/
def Label.name (l : Label) : String := s!"L{l.index}"

/-- What an operation reads or writes. -/
inductive Operand where
  | absent
  /-- a variable or a number, as it is written -/
  | name (text : String)
  | temporary (t : Temporary)
  | label (l : Label)
  deriving DecidableEq, Repr, Inhabited

namespace Operand

/-- How an operand is written. -/
def render : Operand → String
  | .absent => ""
  | .name text => text
  | .temporary t => t.name
  | .label l => l.name

/-- The temporary that an operand is. -/
def temporary? : Operand → Option Temporary
  | .temporary t => some t
  | _ => none

/-- The label that an operand is. -/
def label? : Operand → Option Label
  | .label l => some l
  | _ => none

end Operand

/-- What a quadruple does. -/
inductive Operation where
  | binary (op : BinaryOp)
  | assign
  /-- jump unless the value holds -/
  | ifFalse
  /-- jump if the value holds -/
  | ifTrue
  | goto
  | returning
  /-- the place that jumps to the label go to -/
  | label (l : Label)
  deriving DecidableEq, Repr, Inhabited

namespace Operation

/-- How an operation is written. -/
def render : Operation → String
  | .binary op => op.symbol
  | .assign => "="
  | .ifFalse => "if_false"
  | .ifTrue => "if"
  | .goto => "goto"
  | .returning => "return"
  | .label l => s!"{l.name}:"

/-- The machine may go on elsewhere than behind the operation. -/
def isJump : Operation → Bool
  | .ifFalse | .ifTrue | .goto => true
  | _ => false

end Operation

/-- An instruction. -/
structure Quadruple where
  operation : Operation
  first : Operand := .absent
  second : Operand := .absent
  result : Operand := .absent
  deriving DecidableEq, Repr, Inhabited

namespace Quadruple

/-! ## The quadruples that programs are made of -/

/-- An operator on two operands. -/
def binary (op : BinaryOp) (first second : Operand) (result : Temporary) : Quadruple :=
  ⟨.binary op, first, second, .temporary result⟩

/-- A value for a variable. -/
def assign (value : Operand) (name : String) : Quadruple := ⟨.assign, value, .absent, .name name⟩

/-- A jump unless the value holds. -/
def ifFalse (value : Operand) (target : Label) : Quadruple :=
  ⟨.ifFalse, value, .absent, .label target⟩

/-- A jump if the value holds. -/
def ifTrue (value : Operand) (target : Label) : Quadruple :=
  ⟨.ifTrue, value, .absent, .label target⟩

/-- A jump. -/
def goto (target : Label) : Quadruple := ⟨.goto, .absent, .absent, .label target⟩

/-- The end of the program, with a value. -/
def returning (value : Operand) : Quadruple := ⟨.returning, value, .absent, .absent⟩

/-- A place to jump to. -/
def label (l : Label) : Quadruple := ⟨.label l, .absent, .absent, .absent⟩

/-! ## What a quadruple does -/

/-- The label that stands here. -/
def label? (q : Quadruple) : Option Label :=
  match q.operation with
  | .label l => some l
  | _ => none

/-- The operation is a jump, whatever the result holds. -/
def isJump (q : Quadruple) : Bool := q.operation.isJump

/-- The label that a jump may go to. -/
def target? (q : Quadruple) : Option Label := if q.isJump then q.result.label? else none

/-- The temporaries that are read, the first operand's first. -/
def reads (q : Quadruple) : List Temporary :=
  q.first.temporary?.toList ++ q.second.temporary?.toList

/-- The temporary that is assigned. -/
def writes? (q : Quadruple) : Option Temporary := q.result.temporary?

end Quadruple

end Quadrupler
