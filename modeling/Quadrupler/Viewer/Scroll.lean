set_option autoImplicit false

/-!
# Scrolling

Specification: section 10.11 (scrolling the pane with the focus).

A scroll offset says how many lines lie above the first one shown.  Keys move it without
regard to what there is to show; it stays between zero and `limit`, the largest number of
64 bits.  Drawing clamps it.
-/

namespace Quadrupler.Viewer.Scroll

/-- The largest offset. -/
def limit : Nat := UInt64.size - 1

/-- Some lines up, as far as there are any. -/
def back (offset lines : Nat) : Nat := offset - lines

/-- Some lines down, up to the limit. -/
def forward (offset lines : Nat) : Nat := min limit (offset + lines)

/-- The offset at which the last lines just fill the view, if the given one lies behind
it. -/
def clamp (offset total visible : Nat) : Nat :=
  if total > visible then min offset (total - visible) else 0

/-- The items shown from an offset on, each with its index. -/
def window {α : Type} (offset visible : Nat) (items : List α) : List (α × Nat) :=
  (items.zipIdx.drop offset).take visible

theorem clamp_le_sub (offset total visible : Nat) :
    clamp offset total visible ≤ total - visible := by
  unfold clamp
  split
  · exact Nat.min_le_right _ _
  · exact Nat.zero_le _

end Quadrupler.Viewer.Scroll
