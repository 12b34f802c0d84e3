import Quadrupler.Location
set_option autoImplicit false

/-!
# Tokens

Specification: sections 3 and 10.2 (kinds of tokens).

A token is a piece of a text with its kind and the place where it begins.  What
cannot be read is a token as well, of kind `fault`, whose text says what is wrong;
so cutting a text into tokens never fails.
-/

namespace Quadrupler

/-- The kinds of tokens. -/
inductive TokenKind where
  | keyword
  | identifier
  | operator
  | number
  | delimiter
  | comment
  | fault
  deriving DecidableEq, Repr, Inhabited

/-- A piece of a text with its kind and its place. -/
structure Token where
  kind : TokenKind
  text : String
  location : Location
  deriving DecidableEq, Repr, Inhabited

namespace Token

/-- The words that are no identifiers. -/
def keywords : List String :=
  ["if", "else", "while", "for", "return", "do", "switch", "case", "default"]

/-- The wording of a token in messages. -/
def describe (token : Token) : String :=
  match token.kind with
  | .identifier => s!"identifier '{token.text}'"
  | .number => s!"number '{token.text}'"
  | .fault => s!"invalid input ({token.text})"
  | .keyword | .operator | .delimiter | .comment => s!"'{token.text}'"

/-- The token has this kind and exactly this text. -/
def is (token : Token) (kind : TokenKind) (text : String) : Bool :=
  decide (token.kind = kind) && decide (token.text = text)

/-- The place right after a token that stands on one line. -/
def stop (token : Token) : Location :=
  ⟨token.location.line, token.location.column + token.text.length⟩

/-- The texts of tokens, each on a line of its own. -/
def print (tokens : List Token) : String := "\n".intercalate (tokens.map Token.text)

end Token

end Quadrupler
