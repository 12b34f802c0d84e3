set_option autoImplicit false

/-!
# Blanks

Specification: section 10.2 (what separates tokens).

The characters with the Unicode property `White_Space`, twenty-five in all.  They
separate tokens and indent the lines of an outline.
-/

namespace Quadrupler.Text

/-- The character lies in one of the ranges, both ends included. -/
def within (ranges : List (Nat × Nat)) (c : Char) : Bool :=
  ranges.any fun range => decide (range.1 ≤ c.toNat) && decide (c.toNat ≤ range.2)

/-- The ranges of the property `White_Space`. -/
def blankRanges : List (Nat × Nat) :=
  [(0x09, 0x0D), (0x20, 0x20), (0x85, 0x85), (0xA0, 0xA0), (0x1680, 0x1680), (0x2000, 0x200A),
   (0x2028, 0x2029), (0x202F, 0x202F), (0x205F, 0x205F), (0x3000, 0x3000)]

/-- A character that only separates others. -/
def isBlank (c : Char) : Bool := within blankRanges c

end Quadrupler.Text
