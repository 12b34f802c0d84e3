import Quadrupler.Screen.Style
set_option autoImplicit false

/-!
# Colours of the viewer

Specification: section 10.11 (highlighting).
-/

namespace Quadrupler.Viewer.Theme

open Screen

/-- Text that nothing else applies to. -/
def text : Color := .rgb 205 214 244
/-- Brackets, headings and the name of the file. -/
def primary : Color := .rgb 137 180 250
/-- Operators. -/
def secondary : Color := .rgb 250 179 135
/-- Comments, line numbers and rules. -/
def comment : Color := .rgb 108 112 134
/-- Characters that begin nothing. -/
def fault : Color := .rgb 243 139 168
/-- Keywords and jumps. -/
def keyword : Color := .rgb 137 180 250
/-- Numbers. -/
def number : Color := .rgb 250 179 135
/-- The border of the pane with the focus. -/
def focusedBorder : Color := .rgb 249 226 175
/-- The borders of the other panes. -/
def border : Color := .rgb 108 112 134
/-- The ground of the status bar. -/
def bar : Color := .rgb 50 50 70
/-- Labels. -/
def label : Color := .rgb 249 226 175
/-- Temporaries. -/
def temporary : Color := .rgb 148 226 213
/-- Blocks and statements in a row. -/
def marker : Color := .rgb 245 194 231

end Quadrupler.Viewer.Theme
