import Quadrupler.Quadruple.Flow
set_option autoImplicit false

/-!
# The machine that runs a listing

Specification: sections 3 and 10.7 (order of execution, what each operator does).

The machine works over any values with an operation for each operator and a test of
truth.  It keeps names and temporaries apart, starts at the first quadruple, and halts
past the last one or at a return.  A quadruple that makes no sense stops it for good.
-/

namespace Quadrupler

/-- Values that programs compute with. -/
structure Arithmetic (V : Type) where
  apply : BinaryOp → V → V → V
  holds : V → Bool

/-- The values of names.  Numbers are names too: a valuation says what their digits
mean. -/
abbrev Valuation (V : Type) : Type := String → V

/-- The valuation with one name changed. -/
def Valuation.set {V : Type} (names : Valuation V) (name : String) (v : V) : Valuation V :=
  fun other => if other = name then v else names other

@[simp] theorem Valuation.set_self {V : Type} (names : Valuation V) (name : String) (v : V) :
    names.set name v name = v := by
  simp [Valuation.set]

@[simp] theorem Valuation.set_of_ne {V : Type} (names : Valuation V) {name other : String} (v : V)
    (h : other ≠ name) : names.set name v other = names other := by
  simp [Valuation.set, h]

/-- How a program ends. -/
inductive Completion (V : Type) where
  /-- behind its last statement -/
  | finished
  | returned (v : V)
  deriving DecidableEq, Repr

namespace Machine

variable {V : Type}

/-- The quadruple that is next, and the values of variables and temporaries. -/
structure State (V : Type) where
  index : Nat
  names : Valuation V
  temporaries : Temporary → V

namespace State

/-- The value of an operand; a label has none. -/
def value? (s : State V) : Operand → Option V
  | .name text => some (s.names text)
  | .temporary t => some (s.temporaries t)
  | .absent | .label _ => none

/-- The next quadruple, with a value stored on the way. -/
def store? (s : State V) (v : V) : Operand → Option (State V)
  | .name text => some ⟨s.index + 1, s.names.set text v, s.temporaries⟩
  | .temporary t =>
    some ⟨s.index + 1, s.names, fun other => if other = t then v else s.temporaries other⟩
  | .absent | .label _ => none

/-- The next quadruple. -/
def skip (s : State V) : State V := { s with index := s.index + 1 }

end State

/-- What one quadruple leads to. -/
inductive Next (V : Type) where
  | running (s : State V)
  | halted (completion : Completion V)

/-- One quadruple, or `none` where it makes no sense. -/
def step? (arithmetic : Arithmetic V) (listing : Listing) (s : State V) : Option (Next V) :=
  match listing[s.index]? with
  | none => some (.halted .finished)
  | some q =>
    match q.operation with
    | .label _ => some (.running s.skip)
    | .assign => do
      let v ← s.value? q.first
      return .running (← s.store? v q.result)
    | .binary op => do
      let v ← s.value? q.first
      let w ← s.value? q.second
      return .running (← s.store? (arithmetic.apply op v w) q.result)
    | .returning => do
      let v ← s.value? q.first
      return .halted (.returned v)
    | .goto => do
      let there ← listing.landing? q
      return .running { s with index := there }
    | .ifFalse => do
      let v ← s.value? q.first
      let there ← listing.landing? q
      return .running (if arithmetic.holds v then s.skip else { s with index := there })
    | .ifTrue => do
      let v ← s.value? q.first
      let there ← listing.landing? q
      return .running (if arithmetic.holds v then { s with index := there } else s.skip)

/-- The end of a run of at most `fuel` quadruples. -/
def run? (arithmetic : Arithmetic V) (listing : Listing) :
    Nat → State V → Option (Completion V × Valuation V)
  | 0, _ => none
  | fuel + 1, s =>
    match step? arithmetic listing s with
    | some (.running next) => run? arithmetic listing fuel next
    | some (.halted completion) => some (completion, s.names)
    | none => none

/-- The run from these values halts so, with these values of names. -/
def Halts (arithmetic : Arithmetic V) (listing : Listing) (names : Valuation V)
    (temporaries : Temporary → V) (completion : Completion V) (final : Valuation V) : Prop :=
  ∃ fuel : Nat, run? arithmetic listing fuel ⟨0, names, temporaries⟩ = some (completion, final)

end Machine

end Quadrupler
