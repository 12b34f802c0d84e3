import Quadrupler.Text.Blank
import Quadrupler.Token.Lexeme
set_option autoImplicit false

/-!
# Cutting a text into tokens

Specification: section 10.2 (scanner, unbalanced delimiters).

`Token.scan` reads a text from left to right, skips blanks, and makes a token of every
lexeme.  It keeps the brackets that are open, innermost first; a closing bracket
that does not match the innermost one is a fault and closes nothing.
-/

namespace Quadrupler

namespace Brackets

/-- The bracket that a closing one needs. -/
def opener? : Char → Option Char
  | ')' => some '('
  | '}' => some '{'
  | ']' => some '['
  | _ => none

/-- The open brackets after one delimiter, or `none` when it closes what is not open. -/
def step? (opened : List Char) (c : Char) : Option (List Char) :=
  match opener? c with
  | some partner => if opened.head? = some partner then some opened.tail else none
  | none => some (if c ∈ ['(', '{', '['] then c :: opened else opened)

end Brackets

namespace Lexeme

/-- The token of a lexeme at a place, and the brackets open after it. -/
def token (lexeme : Lexeme) (here : Location) (opened : List Char) : Token × List Char :=
  let text := String.ofList lexeme.chars
  let fault (cause : LexicalFault) : Token := ⟨.fault, cause.message, here⟩
  match lexeme.form with
  | .comment => (⟨.comment, text, here⟩, opened)
  | .openComment => (fault .unterminatedComment, opened)
  | .number => (⟨.number, text, here⟩, opened)
  | .word => (⟨if text ∈ Token.keywords then .keyword else .identifier, text, here⟩, opened)
  | .operator => (⟨.operator, text, here⟩, opened)
  | .delimiter c =>
    match Brackets.step? opened c with
    | some opened => (⟨.delimiter, text, here⟩, opened)
    | none => (fault (.unmatched c), opened)
  | .stray c =>
    (fault (if c ∈ ['!', '&', '|'] then .invalidOperator c else .unrecognized c), opened)

end Lexeme

namespace Token

/-- The tokens of the characters that begin at `here`, inside the brackets `opened`. -/
def scanFrom (here : Location) (opened : List Char) : List Char → List Token
  | [] => []
  | c :: cs =>
    if Text.isBlank c then
      scanFrom (here.next c) opened cs
    else
      let lexeme := Lexeme.first c cs
      let made := lexeme.token here opened
      made.1 :: scanFrom (here.after lexeme.chars) made.2 lexeme.rest
termination_by cs => cs.length
decreasing_by
  · simp
  · exact Nat.lt_succ_of_le (Lexeme.length_rest_le c cs)

/-- The tokens of a text, comments and faults among them. -/
def scan (source : String) : List Token := scanFrom .start [] source.toList

end Token

end Quadrupler
