set_option autoImplicit false

/-!
# Fields of a line

Specification: section 10.7 (columns of a listing).

Cutting a text at a character, and trimming the blanks around a piece.
-/

namespace Quadrupler.Text

/-- The pieces between the occurrences of a character. -/
def fields (separator : Char) : List Char → List (List Char)
  | [] => [[]]
  | c :: cs =>
    if c = separator then
      [] :: fields separator cs
    else
      match fields separator cs with
      | [] => [[c]]
      | field :: others => (c :: field) :: others

/-- The text without the spaces around it. -/
def trimmed (text : List Char) : List Char :=
  ((text.dropWhile (· = ' ')).reverse.dropWhile (· = ' ')).reverse

end Quadrupler.Text
