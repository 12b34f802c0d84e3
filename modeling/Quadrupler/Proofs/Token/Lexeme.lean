import Quadrupler.Token.Scan
set_option autoImplicit false

/-!
# What a lexeme is made of

`Lexeme.Begins` describes the first lexeme of a text by one rule for each of its forms; the rules
and the computation agree (`begins_first`, `Begins.first_eq`).  What holds of all lexemes is
proved by cases over the rules, and that a text begins with some lexeme only needs a rule.
-/

namespace Quadrupler.Lexeme

/-! ## The rules -/

/-- Characters that begin neither a comment nor a number nor a word. -/
structure Plain (c : Char) (cs : List Char) : Prop where
  notComment : c = '/' → cs.head? ≠ some '/' ∧ cs.head? ≠ some '*'
  notDigit : c.isDigit = false
  notLetter : c.isAlpha = false

/-- The text that goes on with `cs` after `c` begins with the lexeme. -/
inductive Begins (c : Char) (cs : List Char) : Lexeme → Prop where
  | lineComment : c = '/' → cs.head? = some '/' →
      Begins c cs ⟨.comment, c :: cs.takeWhile (· ≠ '\n'), cs.dropWhile (· ≠ '\n')⟩
  | blockComment {tail body rest : List Char} : c = '/' → cs = '*' :: tail →
      closeComment tail = some (body, rest) → Begins c cs ⟨.comment, c :: '*' :: body, rest⟩
  | openComment {tail : List Char} : c = '/' → cs = '*' :: tail → closeComment tail = none →
      Begins c cs ⟨.openComment, c :: cs, []⟩
  | number : c.isDigit = true →
      Begins c cs ⟨.number,
        c :: cs.takeWhile Char.isDigit ++ (fraction (cs.dropWhile Char.isDigit)).1,
        (fraction (cs.dropWhile Char.isDigit)).2⟩
  | word : c.isAlpha = true →
      Begins c cs ⟨.word, c :: cs.takeWhile isWordPart, cs.dropWhile isWordPart⟩
  | operator {op : List Char} : Plain c cs → operator? (c :: cs) = some op →
      Begins c cs ⟨.operator, op, (c :: cs).drop op.length⟩
  | delimiter : Plain c cs → operator? (c :: cs) = none → c ∈ delimiters →
      Begins c cs ⟨.delimiter c, [c], cs⟩
  | stray : Plain c cs → operator? (c :: cs) = none → c ∉ delimiters →
      Begins c cs ⟨.stray c, [c], cs⟩

/-! ## Computation and rules agree -/

theorem begins_first (c : Char) (cs : List Char) : Begins c cs (first c cs) := by
  unfold first
  split
  · rename_i opens
    exact .lineComment opens.1 opens.2
  rename_i notLine
  split
  · rename_i opens
    obtain ⟨tail, rfl⟩ : ∃ tail, cs = '*' :: tail := List.head?_eq_some_iff.mp opens.2
    split
    · rename_i closed
      exact .blockComment opens.1 rfl closed
    · rename_i unclosed
      exact .openComment opens.1 rfl unclosed
  rename_i notBlock
  split
  · rename_i digit
    exact .number digit
  rename_i notDigit
  split
  · rename_i letter
    exact .word letter
  rename_i notLetter
  have plain : Plain c cs :=
    ⟨fun slash => ⟨fun head => notLine ⟨slash, head⟩, fun head => notBlock ⟨slash, head⟩⟩,
      by simpa using notDigit, by simpa using notLetter⟩
  split
  · rename_i found
    exact .operator plain found
  rename_i none
  split
  · rename_i member
    exact .delimiter plain none member
  · rename_i other
    exact .stray plain none other

theorem ne_slash_of_isDigit {c : Char} (h : c.isDigit = true) : c ≠ '/' := by
  rintro rfl
  exact absurd h (by decide)

theorem ne_slash_of_isAlpha {c : Char} (h : c.isAlpha = true) : c ≠ '/' := by
  rintro rfl
  exact absurd h (by decide)

theorem le_of_isAlpha {c : Char} (h : c.isAlpha = true) : 'A'.val ≤ c.val ∨ 'a'.val ≤ c.val := by
  rcases (Bool.or_eq_true _ _).mp h with upper | lower
  · exact .inl (of_decide_eq_true upper).1
  · exact .inr (of_decide_eq_true ((Bool.and_eq_true _ _).mp lower).1)

theorem not_isDigit_of_isAlpha {c : Char} (h : c.isAlpha = true) : c.isDigit = false := by
  rw [Bool.eq_false_iff]
  intro digit
  have nine : c.val.toNat ≤ '9'.val.toNat := (Char.isDigit_iff_toNat.mp digit).2
  have letters : '9'.val.toNat < 'A'.val.toNat ∧ '9'.val.toNat < 'a'.val.toNat := by decide
  rcases le_of_isAlpha h with upper | lower
  · have := UInt32.le_iff_toNat_le.mp upper
    omega
  · have := UInt32.le_iff_toNat_le.mp lower
    omega

theorem Begins.first_eq {c : Char} {cs : List Char} {lexeme : Lexeme} (h : Begins c cs lexeme) :
    first c cs = lexeme := by
  unfold first
  cases h with
  | lineComment slash head => rw [if_pos ⟨slash, head⟩]
  | blockComment slash star closed =>
    subst slash star
    simp [closed]
  | openComment slash star unclosed =>
    subst slash star
    simp [unclosed]
  | number digit => simp [ne_slash_of_isDigit digit, digit]
  | word letter => simp [ne_slash_of_isAlpha letter, not_isDigit_of_isAlpha letter, letter]
  | operator plain found =>
    rw [if_neg fun opens => (plain.notComment opens.1).1 opens.2,
      if_neg fun opens => (plain.notComment opens.1).2 opens.2]
    simp [plain.notDigit, plain.notLetter, found]
  | delimiter plain none member =>
    rw [if_neg fun opens => (plain.notComment opens.1).1 opens.2,
      if_neg fun opens => (plain.notComment opens.1).2 opens.2]
    simp [plain.notDigit, plain.notLetter, none, member]
  | stray plain none other =>
    rw [if_neg fun opens => (plain.notComment opens.1).1 opens.2,
      if_neg fun opens => (plain.notComment opens.1).2 opens.2]
    simp [plain.notDigit, plain.notLetter, none, other]

end Quadrupler.Lexeme
