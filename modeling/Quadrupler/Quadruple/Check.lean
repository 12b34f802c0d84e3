import Quadrupler.Quadruple.Listing
set_option autoImplicit false

/-!
# Checking a listing

Specification: sections 10.7 and 10.8 (integrity of a listing).

A sound listing defines every label once, jumps to defined labels only, and assigns
every temporary once and before it is read.  The check looks at all labels first and
then at the quadruples from first to last.
-/

namespace Quadrupler

/-- What is wrong with a listing. -/
inductive ListingFault where
  | duplicateLabel (l : Label)
  | undefinedLabel (l : Label) (index : Nat)
  | duplicateTemporary (t : Temporary)
  | undefinedTemporary (t : Temporary) (index : Nat)
  deriving DecidableEq, Repr, Inhabited

/-- The wording of a fault. -/
def ListingFault.message : ListingFault → String
  | .duplicateLabel l => s!"label {l.name} is defined more than once"
  | .undefinedLabel l index => s!"quadruple {index} jumps to undefined label {l.name}"
  | .duplicateTemporary t => s!"temporary {t.name} is assigned more than once"
  | .undefinedTemporary t index =>
    s!"quadruple {index} reads temporary {t.name} before it is assigned"

namespace Listing

/-- All labels, after those defined before, unless one comes twice. -/
def labelsFrom (defined : List Label) : Listing → Except ListingFault (List Label)
  | [] => .ok defined
  | q :: listing =>
    match q.label? with
    | none => labelsFrom defined listing
    | some l =>
      if l ∈ defined then .error (.duplicateLabel l) else labelsFrom (l :: defined) listing

/-- One quadruple, where these labels are defined and these temporaries assigned.  Returns
the temporaries assigned after it. -/
def checkOne (labels : List Label) (assigned : List Temporary) (index : Nat) (q : Quadruple) :
    Except ListingFault (List Temporary) :=
  match q.target?.filter (· ∉ labels), q.reads.find? (· ∉ assigned), q.writes? with
  | some l, _, _ => .error (.undefinedLabel l index)
  | none, some t, _ => .error (.undefinedTemporary t index)
  | none, none, none => .ok assigned
  | none, none, some t =>
    if t ∈ assigned then .error (.duplicateTemporary t) else .ok (t :: assigned)

/-- The quadruples from `index` on. -/
def checkFrom (labels : List Label) (assigned : List Temporary) (index : Nat) :
    Listing → Except ListingFault Unit
  | [] => .ok ()
  | q :: listing => do
    let assigned ← checkOne labels assigned index q
    checkFrom labels assigned (index + 1) listing

/-- The first fault of a listing, if it has one. -/
def check (listing : Listing) : Except ListingFault Unit := do
  let labels ← labelsFrom [] listing
  checkFrom labels [] 0 listing

end Listing

end Quadrupler
