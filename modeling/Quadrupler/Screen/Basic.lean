import Quadrupler.Screen.Style
set_option autoImplicit false

/-!
# Screens

Specification: section 10.11 (viewer).

A screen is a grid of cells, one character each.  Everything is drawn by `paint`, which
changes the cells of an area by a rule that sees where in the area a cell lies.
-/

namespace Quadrupler.Screen

/-- A character and its style. -/
structure Cell where
  char : Char := ' '
  style : Style := .plain
  deriving DecidableEq, Repr, Inhabited

/-- A rectangle of cells, given by its upper left corner and its size. -/
structure Area where
  x : Nat
  y : Nat
  width : Nat
  height : Nat
  deriving DecidableEq, Repr, Inhabited

namespace Area

/-- The area inside a border one cell wide. -/
def inside (area : Area) : Area :=
  ⟨area.x + 1, area.y + 1, area.width - 2, area.height - 2⟩

/-- The first row of an area. -/
def top (area : Area) : Area := { area with height := min 1 area.height }

end Area

/-- The rows of a screen from top to bottom. -/
abbrev Grid := List (List Cell)

namespace Grid

/-- A screen of blanks. -/
def blank (width height : Nat) : Grid := List.replicate height (List.replicate width {})

/-- Changes each cell of an area, where the rule is given the column and the row of the
cell inside the area. -/
def paint (grid : Grid) (area : Area) (rule : Nat → Nat → Cell → Cell) : Grid :=
  grid.mapIdx fun y row =>
    if area.y ≤ y ∧ y < area.y + area.height then
      row.mapIdx fun x cell =>
        if area.x ≤ x ∧ x < area.x + area.width then
          rule (x - area.x) (y - area.y) cell
        else
          cell
    else
      row

/-- Lays a style over an area. -/
def shade (grid : Grid) (area : Area) (style : Style) : Grid :=
  grid.paint area fun _ _ cell => { cell with style := style.atop cell.style }

/-- Writes lines into an area, one per row, cut at its right and lower side. -/
def write (grid : Grid) (area : Area) (lines : List Line) : Grid :=
  let chars := (lines.map fun line => (Line.chars line).toArray).toArray
  grid.paint area fun x y cell =>
    match chars[y]?.bind fun row => row[x]? with
    | some (char, style) => ⟨char, style.atop cell.style⟩
    | none => cell

/-- Writes a line at the right end of an area, cut to its width. -/
def writeRight (grid : Grid) (area : Area) (line : Line) : Grid :=
  let length := min (Line.chars line).length area.width
  grid.write ⟨area.x + (area.width - length), area.y, length, area.height⟩ [line]

end Grid

/-- The part of a width before a cut at some percent, a half rounded up. -/
def cut (width percent : Nat) : Nat := (2 * width * percent + 100) / 200

end Quadrupler.Screen
