import Quadrupler.Screen.Basic
set_option autoImplicit false

/-!
# Panels

Specification: section 10.11 (viewer).

Lines of text in a border with a title.  The border wins over the style of the panel, and
where an area is so narrow that sides meet, corners win over sides.
-/

namespace Quadrupler.Screen

/-- What is drawn over an area. -/
structure Panel where
  title : String
  border : Style
  /-- what lies under text and border alike -/
  base : Style := .plain
  lines : List Line
  deriving DecidableEq, Repr

namespace Panel

/-- The character of the border of a rectangle at a cell, if the cell is on it. -/
def borderChar? (width height x y : Nat) : Option Char :=
  let left := x = 0
  let right := x + 1 = width
  let top := y = 0
  let bottom := y + 1 = height
  if left ∧ top then some '┌'
  else if left ∧ bottom then some '└'
  else if right ∧ top then some '┐'
  else if right ∧ bottom then some '┘'
  else if bottom then some '─'
  else if right then some '│'
  else if top then some '─'
  else if left then some '│'
  else none

/-- Draws a border just inside of an area. -/
def drawBorder (grid : Grid) (area : Area) (style : Style) : Grid :=
  grid.paint area fun x y cell =>
    match borderChar? area.width area.height x y with
    | some char => ⟨char, style.atop cell.style⟩
    | none => cell

/-- Draws a panel over an area; nothing where the area is empty. -/
def draw (panel : Panel) (area : Area) (grid : Grid) : Grid :=
  let heading : Area := { area.top with x := area.x + 1, width := area.width - 2 }
  let grid := grid.shade area panel.base
  let grid := drawBorder grid area panel.border
  let grid := grid.write heading [[⟨panel.title, .plain⟩]]
  grid.write area.inside panel.lines

end Panel

end Quadrupler.Screen
