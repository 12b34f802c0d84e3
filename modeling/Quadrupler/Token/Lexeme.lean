import Quadrupler.Token.Basic
set_option autoImplicit false

/-!
# Lexemes

Specification: section 10.2 (words, numbers, operators, delimiters, comments).

The first lexeme of a text that does not begin with a blank: the longest piece that
forms a comment, a number, a word, an operator or a delimiter, and otherwise the
one character that begins nothing.  Every case takes at least one character and
loses none (`chars_append_rest`), which is what lets a text be cut to its end.

Letters and digits are those of ASCII.
-/

namespace Quadrupler

/-- Why a piece of text is no token of the language. -/
inductive LexicalFault where
  /-- a comment that is never closed -/
  | unterminatedComment
  /-- a character that only begins operators, but begins none here -/
  | invalidOperator (c : Char)
  /-- a character that begins nothing -/
  | unrecognized (c : Char)
  /-- a closing bracket whose partner is not the bracket opened last -/
  | unmatched (c : Char)
  deriving DecidableEq, Repr, Inhabited

/-- The wording of a fault, which is the text of its token. -/
def LexicalFault.message : LexicalFault → String
  | .unterminatedComment => "unterminated block comment"
  | .invalidOperator c => s!"invalid operator '{c}'"
  | .unrecognized c => s!"unrecognized character '{c}'"
  | .unmatched c => s!"unmatched delimiter '{c}'"

/-- The forms of lexemes. -/
inductive LexemeClass where
  | comment
  /-- a comment that lasts to the end of the text without being closed -/
  | openComment
  | number
  | word
  | operator
  | delimiter (c : Char)
  /-- a character that begins nothing -/
  | stray (c : Char)
  deriving DecidableEq, Repr, Inhabited

/-- A piece of text, and what follows it. -/
structure Lexeme where
  form : LexemeClass
  chars : List Char
  rest : List Char
  deriving DecidableEq, Repr

namespace Lexeme

/-! ## Character classes -/

/-- The operators, each before those that it begins with. -/
def operators : List (List Char) :=
  [['=', '='], ['!', '='], ['<', '='], ['>', '='], ['&', '&'], ['|', '|'], ['+', '+'], ['-', '-'],
   ['+'], ['-'], ['*'], ['/'], ['%'], ['^'], ['='], ['<'], ['>']]

/-- Brackets and punctuation. -/
def delimiters : List Char := ['(', ')', '{', '}', '[', ']', ';', ',', '.', ':']

/-- A character that continues a word. -/
def isWordPart (c : Char) : Bool := c.isAlphanum || decide (c = '_')

/-! ## Pieces -/

/-- The rest of a comment up to and with its first `*/`. -/
def closeComment : List Char → Option (List Char × List Char)
  | [] => none
  | '*' :: '/' :: rest => some (['*', '/'], rest)
  | c :: rest => (closeComment rest).map fun (body, rest) => (c :: body, rest)

/-- A point and digits after it, if the text goes on so. -/
def fraction : List Char → List Char × List Char
  | '.' :: d :: rest =>
    if d.isDigit then
      ('.' :: d :: rest.takeWhile Char.isDigit, rest.dropWhile Char.isDigit)
    else
      ([], '.' :: d :: rest)
  | rest => ([], rest)

/-- The first operator of the table that the text begins with. -/
def operator? (cs : List Char) : Option (List Char) :=
  operators.find? fun op => op.isPrefixOf cs

/-- The lexeme that begins with `c`, where `c` is no blank. -/
def first (c : Char) (cs : List Char) : Lexeme :=
  if c = '/' ∧ cs.head? = some '/' then
    ⟨.comment, c :: cs.takeWhile (· ≠ '\n'), cs.dropWhile (· ≠ '\n')⟩
  else if c = '/' ∧ cs.head? = some '*' then
    -- the star that opens the comment does not close it
    match closeComment cs.tail with
    | some (body, rest) => ⟨.comment, c :: '*' :: body, rest⟩
    | none => ⟨.openComment, c :: cs, []⟩
  else if c.isDigit then
    let tail := fraction (cs.dropWhile Char.isDigit)
    ⟨.number, c :: cs.takeWhile Char.isDigit ++ tail.1, tail.2⟩
  else if c.isAlpha then
    ⟨.word, c :: cs.takeWhile isWordPart, cs.dropWhile isWordPart⟩
  else
    match operator? (c :: cs) with
    | some op => ⟨.operator, op, (c :: cs).drop op.length⟩
    | none => ⟨if c ∈ delimiters then .delimiter c else .stray c, [c], cs⟩

/-! ## Nothing is lost -/

theorem closeComment_append {cs body rest : List Char} (h : closeComment cs = some (body, rest)) :
    body ++ rest = cs := by
  fun_induction closeComment cs generalizing body rest with
  | case1 => simp at h
  | case2 tail => simp only [Option.some.injEq, Prod.mk.injEq] at h; obtain ⟨rfl, rfl⟩ := h; rfl
  | case3 c tail _ ih =>
    obtain ⟨⟨inner, after⟩, found, same⟩ := Option.map_eq_some_iff.1 h
    simp only [Prod.mk.injEq] at same
    obtain ⟨rfl, rfl⟩ := same
    simp [ih found]

theorem fraction_append (cs : List Char) : (fraction cs).1 ++ (fraction cs).2 = cs := by
  fun_cases fraction cs <;> simp [List.takeWhile_append_dropWhile]

theorem operator?_append {cs op : List Char} (h : operator? cs = some op) :
    op ++ cs.drop op.length = cs := by
  unfold operator? at h
  have begins := List.find?_some h
  obtain ⟨tail, rfl⟩ := List.isPrefixOf_iff_prefix.1 begins
  simp

theorem operator?_ne_nil {cs op : List Char} (h : operator? cs = some op) : op ≠ [] := by
  have member : op ∈ operators := List.mem_of_find?_eq_some h
  have nonempty : ∀ o ∈ operators, o ≠ [] := by decide
  exact nonempty op member

theorem chars_append_rest (c : Char) (cs : List Char) :
    (first c cs).chars ++ (first c cs).rest = c :: cs := by
  unfold first
  split
  · simp [List.takeWhile_append_dropWhile]
  · split
    case isTrue opens =>
      obtain ⟨tail, rfl⟩ : ∃ tail, cs = '*' :: tail := List.head?_eq_some_iff.1 opens.2
      split
      case h_1 body rest closed => simp [closeComment_append closed]
      case h_2 => simp
    case isFalse =>
      split
      · simp [fraction_append, List.takeWhile_append_dropWhile]
      · split
        · simp [List.takeWhile_append_dropWhile]
        · split
          case h_1 op found => exact operator?_append found
          case h_2 => rfl

theorem chars_ne_nil (c : Char) (cs : List Char) : (first c cs).chars ≠ [] := by
  unfold first
  split
  · simp
  · split
    · split <;> simp
    · split
      · simp
      · split
        · simp
        · split
          case h_1 op found => exact operator?_ne_nil found
          case h_2 => simp

theorem length_rest_le (c : Char) (cs : List Char) : (first c cs).rest.length ≤ cs.length := by
  have whole := congrArg List.length (chars_append_rest c cs)
  have taken := List.length_pos_iff.2 (chars_ne_nil c cs)
  simp only [List.length_append, List.length_cons] at whole
  omega

end Lexeme

end Quadrupler
