import Quadrupler.Quadruple.Listing
import Quadrupler.Screen.Panel
import Quadrupler.Text.Letter
import Quadrupler.Text.Lines
import Quadrupler.Token.Basic
import Quadrupler.Viewer.Scroll
import Quadrupler.Viewer.Theme
set_option autoImplicit false

/-!
# The panes of the viewer

Specification: section 10.11 (source, tree and listing).

Each pane makes a panel from what it shows, its scroll offset and its height, and gives
the offset after clamping.  The source is coloured line by line, without regard to
comments that go on from the line before.
-/

namespace Quadrupler.Viewer

open Screen

/-- What a pane draws, and its scroll offset afterwards. -/
structure Pane where
  panel : Panel
  offset : Nat
  deriving DecidableEq, Repr

/-! ## Shared parts -/

/-- The border of a pane. -/
def borderStyle (focused : Bool) : Style :=
  if focused then { Style.colored Theme.focusedBorder with bold := true }
  else .colored Theme.border

/-- The style of keywords. -/
def keywordStyle : Style := { Style.colored Theme.keyword with bold := true }

/-- How many lines fit between the borders, below some lines of heading; at least one. -/
def visibleLines (height heading : Nat) : Nat := max 1 (height - 2 - heading)

/-- The number before a line. -/
def lineNumber (n : Nat) : Span :=
  ⟨Text.padLeft 4 (toString n) ++ " ", .colored Theme.comment⟩

/-! ## Source -/

/-- A character that begins a word, given which ones are letters or digits. -/
def beginsWord (alphanumeric : Char → Bool) (c : Char) : Bool :=
  alphanumeric c || decide (c = '_')

/-- A character that continues a word. -/
def continuesWord (alphanumeric : Char → Bool) (c : Char) : Bool :=
  beginsWord alphanumeric c || decide (c = '.')

/-- The style of a word of the source. -/
def wordStyle (word : String) : Style :=
  if word ∈ Token.keywords then keywordStyle
  else if word.toList.head?.any Char.isDigit then .colored Theme.number
  else .colored Theme.text

/-- The style of a character outside words. -/
def charStyle (c : Char) : Style :=
  if c ∈ ['{', '}', '(', ')', '[', ']'] then .colored Theme.primary
  else if c ∈ ['!', '&', '|', '@', '#', '$', '?', '"', '\''] then .colored Theme.fault
  else .colored Theme.text

/-- The pieces of a line of source text, given which characters are letters or digits. -/
def highlight (alphanumeric : Char → Bool) : List Char → Line
  | [] => []
  | c :: cs =>
    if c = '/' ∧ (cs.head? = some '/' ∨ cs.head? = some '*') then
      [⟨String.ofList (c :: cs), .colored Theme.comment⟩]
    else if beginsWord alphanumeric c then
      let word := String.ofList (c :: cs.takeWhile (continuesWord alphanumeric))
      ⟨word, wordStyle word⟩ :: highlight alphanumeric (cs.dropWhile (continuesWord alphanumeric))
    else
      ⟨c.toString, charStyle c⟩ :: highlight alphanumeric cs
termination_by cs => cs.length
decreasing_by
  · exact Nat.lt_succ_of_le (List.dropWhile_suffix _).length_le
  · exact Nat.lt_succ_self _

/-- The pane of the source, with numbered lines. -/
def sourcePane (source : String) (focused : Bool) (offset height : Nat) : Pane :=
  let lines := Text.lines source
  let visible := visibleLines height 0
  let offset := Scroll.clamp offset lines.length visible
  let shown := (Scroll.window offset visible lines).map fun (line, index) =>
    lineNumber (index + 1) :: highlight Text.isAlphanumeric line.toList
  ⟨{ title := " Source ", border := borderStyle focused, lines := shown }, offset⟩

/-! ## Tree -/

/-- The style of the tag of a node. -/
def tagStyle (tag : String) : Style :=
  if tag ∈ ["sequence", "block", ";"] then { Style.colored Theme.marker with italic := true }
  else if tag ∈ Token.keywords then keywordStyle
  else if tag.toList.head?.any Char.isDigit then .colored Theme.number
  else if tag.toList.head?.any Text.isAlphabetic then .colored Theme.text
  else .colored Theme.secondary

/-- A line of an outline: the indentation, then the tag. -/
def outlineLine (line : String) : Line :=
  let indentation := String.ofList (line.toList.takeWhile Text.isBlank)
  let tag := String.ofList (line.toList.dropWhile Text.isBlank)
  [⟨indentation, .colored Theme.comment⟩, ⟨tag, tagStyle tag⟩]

/-- The pane of the tree. -/
def treePane (outline : List String) (nodes : Nat) (focused : Bool) (offset height : Nat) : Pane :=
  let visible := visibleLines height 0
  let offset := Scroll.clamp offset outline.length visible
  let shown := (Scroll.window offset visible outline).map fun (line, _) => outlineLine line
  ⟨{ title := s!" Tree ({nodes} nodes) ", border := borderStyle focused, lines := shown }, offset⟩

/-! ## Quadruples -/

/-- The style of an operation. -/
def operationStyle (operation : Operation) : Style :=
  match operation with
  | .ifFalse | .ifTrue | .goto | .returning => keywordStyle
  | .label _ => { Style.colored Theme.label with bold := true }
  | .binary _ | .assign => .colored Theme.secondary

/-- The style of an operand. -/
def operandStyle (operand : Operand) : Style :=
  match operand with
  | .label _ => .colored Theme.label
  | .temporary _ => .colored Theme.temporary
  | .name _ | .absent => .colored Theme.text

/-- A line of the listing, in the columns of its printed form. -/
def quadrupleLine (index : Nat) (q : Quadruple) : Line :=
  let rule : Span := ⟨Listing.rule, .colored Theme.comment⟩
  let operand (o : Operand) : Span :=
    ⟨Text.padRight Listing.operandWidth o.render, operandStyle o⟩
  [lineNumber index,
   ⟨Text.padRight Listing.operationWidth q.operation.render, operationStyle q.operation⟩, rule,
   operand q.first, rule, operand q.second, rule, ⟨q.result.render, operandStyle q.result⟩]

/-- The line above the quadruples. -/
def headerLine : Line :=
  [⟨"".pushn ' ' 5 ++ Listing.header,
    { Style.colored Theme.primary with bold := true, underlined := true }⟩]

/-- The pane of a listing.  An empty listing has nothing to scroll, and keeps its offset. -/
def listingPane (listing : Listing) (focused : Bool) (offset height : Nat) : Pane :=
  let title := s!" Quadruples ({listing.length}) "
  let border := borderStyle focused
  if listing.isEmpty then
    ⟨{ title, border, base := .colored Theme.comment, lines := [[⟨"(nothing to lower)", .plain⟩]] },
      offset⟩
  else
    let visible := visibleLines height 1
    let offset := Scroll.clamp offset listing.length visible
    let shown := (Scroll.window offset visible listing).map fun (q, index) => quadrupleLine index q
    ⟨{ title, border, lines := headerLine :: shown }, offset⟩

end Quadrupler.Viewer
