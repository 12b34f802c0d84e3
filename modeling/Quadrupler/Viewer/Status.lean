import Quadrupler.Lowering.Emit
import Quadrupler.Screen.Basic
import Quadrupler.Viewer.Theme
set_option autoImplicit false

/-!
# The status bar

Specification: section 10.11 (file, message and totals).

One row: on the left the file, what was drawn and a message, on the right the keys.
-/

namespace Quadrupler.Viewer

open Screen

/-- The ground of the bar. -/
def barStyle : Style := { background := some Theme.bar }

/-- Text on the bar in this colour. -/
def onBar (color : Color) : Style := { barStyle with foreground := some color }

/-- Black text on this colour. -/
def blackOn (color : Color) : Style := { foreground := some .black, background := some color }

/-- The left part of the bar. -/
def statusLine (file message : String) (counters : Counters) : Line :=
  let rule : Span := ⟨" | ", onBar Theme.comment⟩
  [⟨s!" {file} ", { blackOn Theme.primary with bold := true }⟩, rule,
   ⟨s!"{counters.temporaries} temps, {counters.labels} labels", onBar Theme.text⟩, rule,
   ⟨s!"{message} ", onBar Theme.text⟩]

/-- The right part of the bar. -/
def keysLine : Line :=
  let key (name : String) : Span := ⟨name, blackOn Theme.comment⟩
  let words (text : String) : Span := ⟨text, onBar Theme.text⟩
  let rule : Span := ⟨"│", onBar Theme.comment⟩
  [key " Tab ", words " focus ", rule, words " ", key " ↑/↓ ", words " scroll ", rule, words " ",
   key " q ", words " quit "]

/-- Draws the bar over an area; the keys get the cells behind sixty percent of its width. -/
def drawStatus (file message : String) (counters : Counters) (area : Area) (grid : Grid) : Grid :=
  let middle := cut area.width 60
  let left : Area := { area with width := middle }
  let right : Area := { area with x := area.x + middle, width := area.width - middle }
  let grid := grid.shade area barStyle
  let grid := grid.write left [statusLine file message counters]
  grid.writeRight right keysLine

end Quadrupler.Viewer
