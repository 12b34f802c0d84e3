import Quadrupler.Proofs.CommandLine
import Quadrupler.Viewer.Frame
set_option autoImplicit false

/-!
# Scroll offsets after a draw

Keys move offsets without regard to what there is to show, and a draw brings them back: the view
is filled as far as there are rows.  The pane of an empty listing is the exception.  It does not
clamp, so its offset is what the keys alone have made of it, however often it has been drawn.
-/

namespace Quadrupler.Viewer

/-! ## Runs -/

/-- What happens to a viewer.  Where the parts of a frame lie is left open. -/
inductive Event where
  | press (key : Key)
  | draw (width height : Nat) (areas : Layout)
  deriving DecidableEq, Repr

def Event.isPress : Event → Bool
  | .press _ => true
  | .draw _ _ _ => false

/-- The viewer after an event.  One that is quitting draws nothing. -/
def step (viewer : Viewer) : Event → Viewer
  | .press key => viewer.press key
  | .draw width height areas => (viewer.frame width height areas).2

def run (viewer : Viewer) (events : List Event) : Viewer := events.foldl step viewer

theorem run_cons (viewer : Viewer) (event : Event) (events : List Event) :
    viewer.run (event :: events) = (viewer.step event).run events := rfl

variable {viewer other : Viewer}

/-- What a draw does to the offsets. -/
theorem step_draw (running : viewer.quitting = false) (width height : Nat) (areas : Layout) :
    viewer.step (.draw width height areas) = { viewer with
      sourceOffset :=
        Scroll.clamp viewer.sourceOffset (Text.lines viewer.source).length
          (visibleLines areas.source.height 0)
      treeOffset :=
        Scroll.clamp viewer.treeOffset viewer.outline.length (visibleLines areas.tree.height 0)
      listingOffset :=
        if viewer.generated.listing = [] then viewer.listingOffset
        else Scroll.clamp viewer.listingOffset viewer.generated.listing.length
          (visibleLines areas.listing.height 1) } := by
  have listing : (listingPane viewer.generated.listing (viewer.focus = .listing)
      viewer.listingOffset areas.listing.height).offset =
        if viewer.generated.listing = [] then viewer.listingOffset
        else Scroll.clamp viewer.listingOffset viewer.generated.listing.length
          (visibleLines areas.listing.height 1) := by
    simp only [listingPane, List.isEmpty_iff]
    split
    · rfl
    · rfl
  rw [← listing, step, frame, if_neg (by simp [running])]
  rfl

theorem step_draw_of_quitting (quitting : viewer.quitting = true) (width height : Nat)
    (areas : Layout) : viewer.step (.draw width height areas) = viewer := by
  rw [step, frame, if_pos quitting]

/-! ## What does not change -/

/-- What the panes show. -/
def contents (viewer : Viewer) : String × List String × Listing :=
  (viewer.source, viewer.outline, viewer.generated.listing)

theorem contents_scroll (viewer : Viewer) (move : Nat → Nat) :
    (viewer.scroll move).contents = viewer.contents := by
  unfold scroll
  split
  all_goals rfl

theorem contents_press (viewer : Viewer) (key : Key) :
    (viewer.press key).contents = viewer.contents := by
  cases key with
  | character c =>
    rw [press]
    split
    · rfl
    · rfl
  | tab | backTab | escape | other => rfl
  | _ => exact contents_scroll viewer _

theorem contents_step (viewer : Viewer) (event : Event) :
    (viewer.step event).contents = viewer.contents := by
  cases event with
  | press key => exact contents_press viewer key
  | draw width height areas =>
    cases quitting : viewer.quitting with
    | true => rw [step_draw_of_quitting quitting]
    | false =>
      rw [step_draw quitting]
      rfl

theorem contents_run (viewer : Viewer) (events : List Event) :
    (viewer.run events).contents = viewer.contents := by
  induction events generalizing viewer with
  | nil => rfl
  | cons event events ih => rw [run_cons, ih, contents_step]

/-! ## An empty listing -/

/-- The keys that come next do the same to the panes of the listing. -/
def Alike (viewer other : Viewer) : Prop :=
  viewer.focus = other.focus ∧ viewer.listingOffset = other.listingOffset

theorem Alike.scroll (h : Alike viewer other) (move : Nat → Nat) :
    Alike (viewer.scroll move) (other.scroll move) := by
  obtain ⟨focus, offset⟩ := h
  unfold Viewer.scroll Alike
  rw [← focus]
  split
  case h_3 => exact ⟨rfl, congrArg move offset⟩
  all_goals exact ⟨rfl, offset⟩

theorem Alike.press (h : Alike viewer other) (key : Key) :
    Alike (viewer.press key) (other.press key) := by
  cases key with
  | tab => exact ⟨congrArg Focus.next h.1, h.2⟩
  | backTab => exact ⟨congrArg Focus.previous h.1, h.2⟩
  | escape => exact h
  | character c =>
    rw [Viewer.press, Viewer.press]
    split
    · exact h
    · exact h
  | other => exact h
  | _ => exact h.scroll _

/-- No draw moves the pane of an empty listing. -/
theorem Alike.draw (h : Alike viewer other) (empty : viewer.generated.listing = [])
    (width height : Nat) (areas : Layout) :
    Alike (viewer.step (.draw width height areas)) other := by
  cases quitting : viewer.quitting with
  | true => rwa [step_draw_of_quitting quitting]
  | false =>
    rw [step_draw quitting]
    refine ⟨h.1, ?_⟩
    simpa only [if_pos empty] using h.2

/-- The offset in an empty listing is what the keys alone make of it. -/
theorem listingOffset_run_of_empty (h : Alike viewer other)
    (empty : viewer.generated.listing = []) (events : List Event) :
    (viewer.run events).listingOffset =
      (other.run (events.filter Event.isPress)).listingOffset := by
  induction events generalizing viewer other with
  | nil => exact h.2
  | cons event events ih =>
    have still : (viewer.step event).generated.listing = [] := by
      have same := congrArg (·.2.2) (contents_step viewer event)
      exact same.trans empty
    cases event with
    | press key => exact ih (h.press key) still
    | draw width height areas => exact ih (h.draw empty width height areas) still

/-! ## Range -/

/-- Not more rows lie above the view than it takes to fill it with the last ones, and none if all
rows can be seen. -/
def InRange (offset rows visible : Nat) : Prop :=
  offset ≤ rows - visible ∧ (rows ≤ visible → offset = 0)

instance (offset rows visible : Nat) : Decidable (InRange offset rows visible) :=
  inferInstanceAs (Decidable (_ ∧ _))

theorem inRange_clamp (offset rows visible : Nat) :
    InRange (Scroll.clamp offset rows visible) rows visible := by
  have least := Scroll.clamp_le_sub offset rows visible
  exact ⟨least, fun fits => by omega⟩

theorem inRange_zero_iff {offset visible : Nat} : InRange offset 0 visible ↔ offset = 0 := by
  constructor
  · exact fun h => h.2 (Nat.zero_le visible)
  · rintro rfl
    exact ⟨Nat.zero_le _, fun _ => rfl⟩

/-- What a draw at the end of a run leaves behind. -/
theorem inRange_of_draw (file source : String) (t : Tree) (generated : Generator)
    (events : List Event) (width height : Nat) (areas : Layout)
    (running : ((start file source t generated).run events).quitting = false) :
    let viewer := start file source t generated
    let drawn := viewer.run (events ++ [.draw width height areas])
    InRange drawn.sourceOffset (Text.lines source).length (max 1 (areas.source.height - 2)) ∧
      InRange drawn.treeOffset t.outline.length (max 1 (areas.tree.height - 2)) ∧
      (InRange drawn.listingOffset generated.listing.length (max 1 (areas.listing.height - 3)) ↔
        generated.listing ≠ [] ∨
          (viewer.run (events.filter Event.isPress)).listingOffset = 0) := by
  intro viewer drawn
  have last : drawn = (viewer.run events).step (.draw width height areas) := List.foldl_append
  have shown : (viewer.run events).contents = (source, t.outline, generated.listing) :=
    contents_run viewer events
  simp only [contents, Prod.mk.injEq] at shown
  obtain ⟨lines, outline, listing⟩ := shown
  rw [last, step_draw running, lines, outline, listing]
  refine ⟨inRange_clamp _ _ _, inRange_clamp _ _ _, ?_⟩
  by_cases empty : generated.listing = []
  · have keys : (viewer.run events).listingOffset =
        (viewer.run (events.filter Event.isPress)).listingOffset :=
      listingOffset_run_of_empty ⟨rfl, rfl⟩ empty events
    rw [if_pos empty, keys, empty, List.length_nil, inRange_zero_iff]
    simp
  · rw [if_neg empty]
    exact iff_of_true (inRange_clamp _ _ _) (.inl empty)

/-! ## The viewer of a program -/

/-- A text that can be compiled is shown, with its simplified tree and its code. -/
theorem process_opens {path source : String} {raw : Tree} {q : Listing}
    (read : parse source = .ok raw) (lowered : lower raw.simplify = .ok q) :
    ∃ counters, CommandLine.process path source false =
      .view (start (CommandLine.fileName path) source raw.simplify ⟨q, counters⟩)
        (CommandLine.generated path raw.simplify q) := by
  obtain ⟨passes, counters, made, names⟩ := check_of_lower lowered
  refine ⟨counters, ?_⟩
  rw [CommandLine.process, read]
  simp only [made, passes, CommandLine.generated, names]
  rfl

/-- The viewer opens on every text that can be compiled.  After a draw its offsets are in range,
whatever keys have been pressed and whatever has been drawn before, on screens of any size and
over any areas of them.  Only the pane of an empty listing may be out of range, and it is unless
the keys alone, without any draw, leave its offset at zero. -/
theorem draw_scroll_range {source : String} {q : Listing} (compiled : compile source = .ok q)
    (path : String) :
    ∃ (raw : Tree) (counters : Counters) (messages : String),
      let viewer := start (CommandLine.fileName path) source raw.simplify ⟨q, counters⟩
      parse source = .ok raw ∧ CommandLine.process path source false = .view viewer messages ∧
      ∀ (events : List Event) (width height : Nat) (areas : Layout),
        (viewer.run events).quitting = false →
        let drawn := viewer.run (events ++ [.draw width height areas])
        InRange drawn.sourceOffset (Text.lines source).length (max 1 (areas.source.height - 2)) ∧
          InRange drawn.treeOffset raw.simplify.outline.length
            (max 1 (areas.tree.height - 2)) ∧
          (InRange drawn.listingOffset q.length (max 1 (areas.listing.height - 3)) ↔
            q ≠ [] ∨ (viewer.run (events.filter Event.isPress)).listingOffset = 0) := by
  cases read : parse source with
  | error e =>
    rw [compile_eq_error_of_parse read] at compiled
    cases compiled
  | ok raw =>
    obtain ⟨listing, lowered, compiled'⟩ := exists_compile_of_parse read
    obtain rfl : listing = q := Except.ok.inj (compiled'.symm.trans compiled)
    obtain ⟨counters, opened⟩ := process_opens read lowered
    exact ⟨raw, counters, _, rfl, opened, fun events width height areas running =>
      inRange_of_draw _ source raw.simplify ⟨listing, counters⟩ events width height areas running⟩

/-- The last of three quadruples is all that fits, and all lines of the source do. -/
theorem draw_scroll_range_end :
    let source := "x = a + 1;\nreturn x;"
    let q : Listing :=
      [.binary .add (.name "a") (.name "1") ⟨0⟩, .assign (.temporary ⟨0⟩) "x",
       .returning (.name "x")]
    let events : List Event := [.press .bottom, .press .tab, .press .down]
    compile source = .ok q ∧
      ∃ viewer messages, CommandLine.process "a.q" source false = .view viewer messages ∧
        (viewer.run events).quitting = false ∧
        let drawn := viewer.run (events ++ [.draw 40 5 (.ofSize 40 5)])
        InRange drawn.sourceOffset 2 2 ∧ InRange drawn.listingOffset 3 1 := by
  intro source q events
  have compiled : compile source = .ok q := by decide +kernel
  have lines : (Text.lines source).length = 2 := by decide +kernel
  obtain ⟨raw, counters, messages, -, opened, drawn⟩ := draw_scroll_range compiled "a.q"
  obtain ⟨sourceRange, -, listingRange⟩ := drawn events 40 5 (.ofSize 40 5) rfl
  rw [lines] at sourceRange
  exact ⟨compiled, _, messages, opened, rfl, sourceRange,
    listingRange.mpr (.inl (List.cons_ne_nil _ _))⟩

/-- An empty program has nothing to scroll, and a key moves its listing out of range, where it stays
when it is drawn. -/
theorem empty_listing_out_of_range :
    compile "" = .ok [] ∧
      ∃ viewer messages, CommandLine.process "a.q" "" false = .view viewer messages ∧
        (viewer.run [.press .down]).quitting = false ∧
        ¬InRange (viewer.run [.press .down, .draw 20 5 (.ofSize 20 5)]).listingOffset 0
          (max 1 ((Layout.ofSize 20 5).listing.height - 3)) := by
  have read : parse "" = .ok (.block [] .start) := by decide +kernel
  have lowered : lower (Tree.block [] .start).simplify = .ok [] := rfl
  obtain ⟨counters, opened⟩ := process_opens read lowered
  refine ⟨by decide +kernel, _, _, opened, rfl, fun range => ?_⟩
  exact absurd (inRange_zero_iff.mp range) Nat.one_ne_zero

end Quadrupler.Viewer
