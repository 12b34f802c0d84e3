import Quadrupler.Lowering.Generator
import Quadrupler.Tree.Walk
import Quadrupler.Viewer.Scroll
set_option autoImplicit false

/-!
# The viewer

Specification: section 10.11 (panes, keys, focus).

The state of a viewer: what it shows, which pane has the focus, and how far each pane is
scrolled.  Keys act on the pane with the focus.
-/

namespace Quadrupler

namespace Viewer

/-- One of the three panes, from left to right. -/
inductive Focus where
  | source
  | tree
  | listing
  deriving DecidableEq, Repr, Inhabited

/-- The pane to the right, and from the last one the first. -/
def Focus.next : Focus → Focus
  | .source => .tree
  | .tree => .listing
  | .listing => .source

/-- The pane to the left, and from the first one the last. -/
def Focus.previous : Focus → Focus
  | .source => .listing
  | .tree => .source
  | .listing => .tree

/-- A key. -/
inductive Key where
  | tab
  | backTab
  | up
  | down
  | pageUp
  | pageDown
  | home
  | bottom
  | escape
  | character (c : Char)
  /-- a key without a meaning here -/
  | other
  deriving DecidableEq, Repr, Inhabited

/-- The key of a name: one of a few words, or the character itself. -/
def Key.ofName (name : String) : Key :=
  match name with
  | "Tab" => .tab
  | "BackTab" => .backTab
  | "Up" => .up
  | "Down" => .down
  | "PageUp" => .pageUp
  | "PageDown" => .pageDown
  | "Home" => .home
  | "End" => .bottom
  | "Esc" => .escape
  | name =>
    match name.toList with
    | [c] => .character c
    | _ => .other

/-- How many lines the page keys move. -/
def pageLines : Nat := 10

end Viewer

/-- What a viewer shows, and where its panes are scrolled to. -/
structure Viewer where
  file : String
  source : String
  /-- the simplified tree, one line per node -/
  outline : List String
  nodes : Nat
  generated : Generator
  focus : Viewer.Focus := .listing
  sourceOffset : Nat := 0
  treeOffset : Nat := 0
  listingOffset : Nat := 0
  quitting : Bool := false
  status : String := "Ready!"
  deriving DecidableEq, Repr

namespace Viewer

/-- A viewer of a program, its simplified tree and the code of that tree. -/
def start (file source : String) (t : Tree) (generated : Generator) : Viewer :=
  { file, source, outline := t.outline, nodes := t.size, generated }

/-- Changes the offset of the pane with the focus. -/
def scroll (viewer : Viewer) (move : Nat → Nat) : Viewer :=
  match viewer.focus with
  | .source => { viewer with sourceOffset := move viewer.sourceOffset }
  | .tree => { viewer with treeOffset := move viewer.treeOffset }
  | .listing => { viewer with listingOffset := move viewer.listingOffset }

/-- The viewer after a key. -/
def press (viewer : Viewer) : Key → Viewer
  | .tab => { viewer with focus := viewer.focus.next }
  | .backTab => { viewer with focus := viewer.focus.previous }
  | .up => viewer.scroll (Scroll.back · 1)
  | .down => viewer.scroll (Scroll.forward · 1)
  | .pageUp => viewer.scroll (Scroll.back · pageLines)
  | .pageDown => viewer.scroll (Scroll.forward · pageLines)
  | .home => viewer.scroll fun _ => 0
  | .bottom => viewer.scroll fun _ => Scroll.limit
  | .escape => { viewer with quitting := true }
  | .character c => if c = 'q' ∨ c = 'Q' then { viewer with quitting := true } else viewer
  | .other => viewer

end Viewer

end Quadrupler
