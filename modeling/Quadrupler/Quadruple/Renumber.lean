import Quadrupler.Lowering.Emit
set_option autoImplicit false

/-!
# Renumbering

Specification: section 9 (counters of independent runs).

Code with every temporary and every label raised by what other code has drawn before it.
-/

namespace Quadrupler

/-- What was drawn by two pieces of code together. -/
def Counters.plus (a b : Counters) : Counters :=
  ⟨a.temporaries + b.temporaries, a.labels + b.labels⟩

/-- A temporary behind those drawn. -/
def Temporary.raise (drawn : Counters) (t : Temporary) : Temporary := ⟨drawn.temporaries + t.index⟩

/-- A label behind those drawn. -/
def Label.raise (drawn : Counters) (l : Label) : Label := ⟨drawn.labels + l.index⟩

/-- An operand with its temporary or label raised. -/
def Operand.raise (drawn : Counters) : Operand → Operand
  | .absent => .absent
  | .name text => .name text
  | .temporary t => .temporary (t.raise drawn)
  | .label l => .label (l.raise drawn)

/-- An operation with the label that it defines raised. -/
def Operation.raise (drawn : Counters) : Operation → Operation
  | .label l => .label (l.raise drawn)
  | operation => operation

/-- A quadruple with all its parts raised. -/
def Quadruple.raise (drawn : Counters) (q : Quadruple) : Quadruple :=
  ⟨q.operation.raise drawn, q.first.raise drawn, q.second.raise drawn, q.result.raise drawn⟩

def Listing.raise (drawn : Counters) (listing : Listing) : Listing :=
  listing.map (Quadruple.raise drawn)

end Quadrupler
