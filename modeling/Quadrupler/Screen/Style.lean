set_option autoImplicit false

/-!
# Styles

Specification: section 10.11 (viewer).

How a character is shown.  A style may leave a colour open, and one style atop another
keeps the lower one's colour where it leaves its own open.
-/

namespace Quadrupler.Screen

/-- Black, or a mixture of red, green and blue. -/
inductive Color where
  | black
  | rgb (red green blue : Nat)
  deriving DecidableEq, Repr, Inhabited

/-- Colours, where they are not left open, and marks. -/
structure Style where
  foreground : Option Color := none
  background : Option Color := none
  bold : Bool := false
  italic : Bool := false
  underlined : Bool := false
  deriving DecidableEq, Repr, Inhabited

namespace Style

/-- No colours and no marks. -/
def plain : Style := {}

/-- Text in this colour. -/
def colored (color : Color) : Style := { foreground := some color }

/-- One style atop another: its own colours where it has them, the marks of both. -/
def atop (upper lower : Style) : Style where
  foreground := upper.foreground.or lower.foreground
  background := upper.background.or lower.background
  bold := upper.bold || lower.bold
  italic := upper.italic || lower.italic
  underlined := upper.underlined || lower.underlined

end Style

/-- A piece of text in one style. -/
structure Span where
  text : String
  style : Style := .plain
  deriving DecidableEq, Repr, Inhabited

/-- A line of text, piece by piece. -/
abbrev Line := List Span

/-- The characters of a line, each in its style. -/
def Line.chars (line : Line) : List (Char × Style) :=
  line.flatMap fun span => span.text.toList.map fun c => (c, span.style)

end Quadrupler.Screen
