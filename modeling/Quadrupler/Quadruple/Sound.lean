import Quadrupler.Quadruple.Check
set_option autoImplicit false

/-!
# Sound listings

Specification: section 10.7 (integrity of a listing).

What each fault of a listing means at an index, said of the listing as a whole and not of
a pass through it.  A quadruple reads its operands and assigns its result; it jumps, or is a
label, by its operation.
-/

namespace Quadrupler.Listing

/-- The quadruple at the index commits the fault. -/
inductive Violates (listing : Listing) (index : Nat) : ListingFault → Prop where
  | duplicateLabel {q p : Quadruple} {earlier : Nat} {l : Label} :
      listing[index]? = some q → q.operation = .label l →
      earlier < index → listing[earlier]? = some p → p.operation = .label l →
      Violates listing index (.duplicateLabel l)
  | undefinedLabel {q : Quadruple} {l : Label} :
      listing[index]? = some q → q.operation ∈ [.ifFalse, .ifTrue, .goto] →
      q.result = .label l → (∀ p ∈ listing, p.operation ≠ .label l) →
      Violates listing index (.undefinedLabel l index)
  | undefinedTemporary {q : Quadruple} {t : Temporary} :
      listing[index]? = some q → q.first = .temporary t ∨ q.second = .temporary t →
      (∀ (earlier : Nat) (p : Quadruple), earlier < index → listing[earlier]? = some p →
        p.result ≠ .temporary t) →
      Violates listing index (.undefinedTemporary t index)
  | duplicateTemporary {q p : Quadruple} {earlier : Nat} {t : Temporary} :
      listing[index]? = some q → q.result = .temporary t →
      earlier < index → listing[earlier]? = some p → p.result = .temporary t →
      Violates listing index (.duplicateTemporary t)

/-- No quadruple commits a fault. -/
def Sound (listing : Listing) : Prop :=
  ∀ (index : Nat) (fault : ListingFault), ¬ Violates listing index fault

end Quadrupler.Listing
