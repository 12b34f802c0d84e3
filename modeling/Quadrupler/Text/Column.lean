set_option autoImplicit false

/-!
# Columns of text

Specification: section 10.7 (column padding).

Padding to a width in characters.  A text that is too long stays whole.
-/

namespace Quadrupler.Text

theorem toList_pushn (text : String) (c : Char) (n : Nat) :
    (text.pushn c n).toList = text.toList ++ List.replicate n c := by
  rw [String.pushn_eq_repeat_push]
  induction n with
  | zero => simp [Nat.repeat]
  | succ n ih => rw [Nat.repeat, String.toList_push, ih, List.append_assoc, List.replicate_succ']

/-- Blanks after the text. -/
def padRight (width : Nat) (text : String) : String := text.pushn ' ' (width - text.length)

/-- Blanks before the text. -/
def padLeft (width : Nat) (text : String) : String := "".pushn ' ' (width - text.length) ++ text

end Quadrupler.Text
