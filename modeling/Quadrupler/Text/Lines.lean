set_option autoImplicit false

/-!
# Lines of a text

Specification: section 10.11 (line numbers of the source).

A line ends at a line feed, with the carriage return before it, if there is one.  What
follows the last line feed is a line unless it is empty.
-/

namespace Quadrupler.Text

/-- A finished line, given backwards. -/
def finished : List Char → String
  | '\r' :: line => String.ofList line.reverse
  | line => String.ofList line.reverse

/-- The lines of a text after a line that has begun, given backwards. -/
def linesFrom (begun : List Char) : List Char → List String
  | [] => if begun.isEmpty then [] else [String.ofList begun.reverse]
  | c :: cs => if c = '\n' then finished begun :: linesFrom [] cs else linesFrom (c :: begun) cs

/-- The lines of a text. -/
def lines (text : String) : List String := linesFrom [] text.toList

end Quadrupler.Text
