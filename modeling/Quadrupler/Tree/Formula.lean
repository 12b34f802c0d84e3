import Quadrupler.Token.Lexeme
import Quadrupler.Tree.Basic
set_option autoImplicit false

/-!
# Writing expressions

Specification: section 4.1 (precedence, parentheses).

An expression is written with its operators between their operands.  Parentheses stand
only where reading would group otherwise: around a left operand that binds looser than
the operator, and around a right operand that does not bind tighter.
-/

namespace Quadrupler.Tree

/-- Digits, or digits with a point between two of them. -/
def isNumberText (text : String) : Bool :=
  let digits := text.toList.takeWhile Char.isDigit
  match text.toList.dropWhile Char.isDigit with
  | [] => !digits.isEmpty
  | '.' :: fraction => !digits.isEmpty && !fraction.isEmpty && fraction.all Char.isDigit
  | _ => false

/-- A word that is no keyword. -/
def isName (text : String) : Bool :=
  match text.toList with
  | [] => false
  | c :: cs => c.isAlpha && cs.all Lexeme.isWordPart && decide (text ∉ Token.keywords)

/-- Numbers, names and operators between two operands, and nothing in other slots. -/
def isFormula : Tree → Bool
  | ⟨.number text, _, none, none, []⟩ => isNumberText text
  | ⟨.identifier name, _, none, none, []⟩ => isName name
  | ⟨.binary _, _, some left, some right, []⟩ => isFormula left && isFormula right
  | _ => false

/-- How tightly the root binds; a leaf binds tighter than any operator. -/
def tightness (t : Tree) : Nat :=
  match t.kind with
  | .binary op => op.precedence
  | _ => 5

/-- Words, in parentheses if asked for. -/
def enclosed (parentheses : Bool) (words : List String) : List String :=
  if parentheses then "(" :: words ++ [")"] else words

/-- The tokens of an expression, as they are written. -/
def words : Tree → List String
  | ⟨.number text, _, _, _, _⟩ => [text]
  | ⟨.identifier name, _, _, _, _⟩ => [name]
  | ⟨.binary op, _, some left, some right, _⟩ =>
    enclosed (left.tightness < op.precedence) (words left) ++ op.symbol ::
      enclosed (right.tightness ≤ op.precedence) (words right)
  | _ => []

/-- An expression as text, with a blank between tokens. -/
def written (t : Tree) : String := " ".intercalate t.words

end Quadrupler.Tree
