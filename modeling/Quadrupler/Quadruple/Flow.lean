import Quadrupler.Quadruple.Listing
set_option autoImplicit false

/-!
# Control flow

Specification: section 8 (backward and forward jumps).

Where a listing may go on after each of its quadruples.
-/

namespace Quadrupler.Listing

/-- Where a label stands first. -/
def position? (listing : Listing) (l : Label) : Option Nat :=
  listing.findIdx? fun q => q.label? = some l

/-- Where the jump of a quadruple goes. -/
def landing? (listing : Listing) (q : Quadruple) : Option Nat :=
  q.target?.bind listing.position?

/-- The indices that may come after this one: either outcome of a test is allowed, and
nothing follows a return. -/
def successors (listing : Listing) (index : Nat) : List Nat :=
  match listing[index]? with
  | none => []
  | some q =>
    match q.operation with
    | .returning => []
    | .goto => (listing.landing? q).toList
    | .ifFalse | .ifTrue => (index + 1) :: (listing.landing? q).toList
    | .binary _ | .assign | .label _ => [index + 1]

/-- A way from the first quadruple to an index, with the indices passed before. -/
inductive Path (listing : Listing) : List Nat → Nat → Prop where
  | start : Path listing [] 0
  | step {passed : List Nat} {index next : Nat} :
      Path listing passed index → next ∈ listing.successors index →
      Path listing (passed ++ [index]) next

end Quadrupler.Listing
