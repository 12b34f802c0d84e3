import Quadrupler.Viewer.Basic
import Quadrupler.Viewer.Panes
import Quadrupler.Viewer.Status
set_option autoImplicit false

/-!
# Frames

Specification: section 10.11 (panes and status bar).

A frame shows the three panes side by side above the status bar.  Drawing one clamps the
scroll offsets of all panes, seen or not.
-/

namespace Quadrupler.Viewer

open Screen

/-- The areas of a frame. -/
structure Layout where
  source : Area
  tree : Area
  listing : Area
  status : Area
  deriving DecidableEq, Repr

/-- The last row is the status bar; above it the columns end at 35 and 60 percent of the
width. -/
def Layout.ofSize (width height : Nat) : Layout :=
  let above := height - 1
  let first := cut width 35
  let second := cut width 60
  { source := ⟨0, 0, first, above⟩
    tree := ⟨first, 0, second - first, above⟩
    listing := ⟨second, 0, width - second, above⟩
    status := ⟨0, above, width, height - above⟩ }

/-- Draws a frame of this size, with its parts over the areas of a layout. -/
def draw (viewer : Viewer) (width height : Nat) (layout : Layout) : Grid × Viewer :=
  let focused (pane : Focus) : Bool := viewer.focus = pane
  let source :=
    sourcePane viewer.source (focused .source) viewer.sourceOffset layout.source.height
  let tree :=
    treePane viewer.outline viewer.nodes (focused .tree) viewer.treeOffset layout.tree.height
  let listing :=
    listingPane viewer.generated.listing (focused .listing) viewer.listingOffset
      layout.listing.height
  let grid := Grid.blank width height
  let grid := source.panel.draw layout.source grid
  let grid := tree.panel.draw layout.tree grid
  let grid := listing.panel.draw layout.listing grid
  let grid := drawStatus viewer.file viewer.status viewer.generated.counters layout.status grid
  (grid, { viewer with
    sourceOffset := source.offset, treeOffset := tree.offset, listingOffset := listing.offset })

/-- The next frame, unless the viewer is quitting. -/
def frame (viewer : Viewer) (width height : Nat) (layout : Layout := .ofSize width height) :
    Option Grid × Viewer :=
  if viewer.quitting then
    (none, viewer)
  else
    let (grid, viewer) := viewer.draw width height layout
    (some grid, viewer)

end Quadrupler.Viewer
