import Mathlib.Data.List.TakeWhile
import Quadrupler.Proofs.Token.Join
import Quadrupler.Proofs.Token.Lexeme
import Quadrupler.Tree.Formula
set_option autoImplicit false

/-!
# Words with blanks between them

A number, a name, an operator or a parenthesis is cut off as it is where a blank or nothing
follows, because a blank continues none of them.  So such words in a row, with the parentheses
matched, are cut into the tokens that they stand for.
-/

namespace Quadrupler

namespace Lexeme

variable {c : Char} {cs more : List Char}

/-- Nothing follows, or a blank. -/
def Apart (more : List Char) : Prop := more = [] ∨ ∃ ds, more = ' ' :: ds

theorem Apart.head?_ne (h : Apart more) (visible : c ≠ ' ') : more.head? ≠ some c := by
  rcases h with rfl | ⟨ds, rfl⟩
  · simp
  · simpa using visible.symm

/-- A blank ends what does not contain it. -/
theorem Apart.span {p : Char → Bool} (h : Apart more) (blank : p ' ' = false)
    (all : ∀ c ∈ cs, p c = true) :
    (cs ++ more).takeWhile p = cs ∧ (cs ++ more).dropWhile p = more := by
  rw [List.takeWhile_append_of_pos all, List.dropWhile_append_of_pos all]
  rcases h with rfl | ⟨ds, rfl⟩
  · simp
  · simp [blank]

theorem Apart.fraction_eq (h : Apart more) : fraction more = ([], more) := by
  rcases h with rfl | ⟨ds, rfl⟩
  · rfl
  · exact fraction_of_ne (by decide) ds

theorem Apart.operator?_eq (h : Apart more) (cs : List Char) :
    operator? (cs ++ more) = operator? cs := by
  rcases h with rfl | ⟨ds, rfl⟩
  · rw [List.append_nil]
  · exact operator?_append_stop (by decide) cs ds

/-! ## Characters that are no blanks -/

theorem not_isBlank {c : Char} (printed : 0x21 ≤ c.toNat ∧ c.toNat ≤ 0x7E) :
    ¬Text.isBlank c = true := by
  simp only [Text.isBlank, Text.within, Text.blankRanges, List.any_cons, List.any_nil,
    Bool.or_eq_true, Bool.and_eq_true, decide_eq_true_eq, Bool.false_eq_true, or_false]
  omega

theorem printed_of_isDigit (h : c.isDigit = true) : 0x21 ≤ c.toNat ∧ c.toNat ≤ 0x7E := by
  obtain ⟨lower, upper⟩ := Char.isDigit_iff_toNat.mp h
  have digits : 0x21 ≤ '0'.toNat ∧ '9'.toNat ≤ 0x7E := by decide
  exact ⟨Nat.le_trans digits.1 lower, Nat.le_trans upper digits.2⟩

theorem printed_of_isAlpha (h : c.isAlpha = true) : 0x21 ≤ c.toNat ∧ c.toNat ≤ 0x7E := by
  rcases (Bool.or_eq_true _ _).mp h with upper | lower
  · have letters : 0x21 ≤ 'A'.toNat ∧ 'Z'.toNat ≤ 0x7E := by decide
    obtain ⟨least, greatest⟩ := of_decide_eq_true upper
    exact ⟨Nat.le_trans letters.1 (UInt32.le_iff_toNat_le.mp least),
      Nat.le_trans (UInt32.le_iff_toNat_le.mp greatest) letters.2⟩
  · have letters : 0x21 ≤ 'a'.toNat ∧ 'z'.toNat ≤ 0x7E := by decide
    obtain ⟨least, greatest⟩ := (Bool.and_eq_true _ _).mp lower
    exact ⟨Nat.le_trans letters.1 (UInt32.le_iff_toNat_le.mp (of_decide_eq_true least)),
      Nat.le_trans (UInt32.le_iff_toNat_le.mp (of_decide_eq_true greatest)) letters.2⟩

theorem not_isBlank_of_isDigit (h : c.isDigit = true) : ¬Text.isBlank c = true :=
  not_isBlank (printed_of_isDigit h)

theorem not_isBlank_of_isAlpha (h : c.isAlpha = true) : ¬Text.isBlank c = true :=
  not_isBlank (printed_of_isAlpha h)

/-! ## Each kind of word -/

/-- Digits, and perhaps a point with more digits behind it. -/
theorem exists_digits {text : String} (number : Tree.isNumberText text = true) :
    ∃ c cs tail, text.toList = c :: (cs ++ tail) ∧ c.isDigit = true ∧
      (∀ d ∈ cs, d.isDigit = true) ∧
      (tail = [] ∨ ∃ d ds, tail = '.' :: d :: ds ∧ ∀ e ∈ d :: ds, e.isDigit = true) := by
  have whole : text.toList.takeWhile Char.isDigit ++ text.toList.dropWhile Char.isDigit =
      text.toList := List.takeWhile_append_dropWhile
  have digits : ∀ d ∈ text.toList.takeWhile Char.isDigit, d.isDigit = true :=
    fun d member => List.mem_takeWhile_imp member
  unfold Tree.isNumberText at number
  generalize text.toList.takeWhile Char.isDigit = before at *
  generalize text.toList.dropWhile Char.isDigit = tail at *
  cases before with
  | nil =>
    split at number
    all_goals simp at number
  | cons c cs =>
    obtain ⟨digit, others⟩ := List.forall_mem_cons.mp digits
    refine ⟨c, cs, tail, by rw [← whole, List.cons_append], digit, others, ?_⟩
    split at number
    · exact .inl rfl
    · rename_i fraction
      cases fraction with
      | nil => simp at number
      | cons d ds =>
        refine .inr ⟨d, ds, rfl, ?_⟩
        simpa using number
    · cases number

theorem begins_number {text : String} (number : Tree.isNumberText text = true)
    (apart : Apart more) :
    ∃ c cs, text.toList = c :: cs ∧ c.isDigit = true ∧
      Begins c (cs ++ more) ⟨.number, text.toList, more⟩ := by
  obtain ⟨c, cs, tail, whole, digit, others, shape⟩ := exists_digits number
  refine ⟨c, cs ++ tail, whole, digit, ?_⟩
  have rule : Begins c (cs ++ tail ++ more) _ := .number digit
  have point : Char.isDigit '.' = false := by decide
  rw [whole]
  rcases shape with rfl | ⟨d, ds, rfl, digits⟩
  · rw [List.append_nil] at rule ⊢
    obtain ⟨taken, left⟩ := apart.span (show Char.isDigit ' ' = false by decide) others
    rw [taken, left, apart.fraction_eq, List.append_nil] at rule
    exact rule
  · obtain ⟨first, behind⟩ := List.forall_mem_cons.mp digits
    obtain ⟨taken, left⟩ := apart.span (show Char.isDigit ' ' = false by decide) behind
    rw [List.append_assoc, List.takeWhile_append_of_pos others,
      List.dropWhile_append_of_pos others] at rule
    have stopped : List.takeWhile Char.isDigit ('.' :: d :: ds ++ more) = [] := by
      simp [point]
    have kept : List.dropWhile Char.isDigit ('.' :: d :: ds ++ more) =
        '.' :: d :: (ds ++ more) := by
      simp [point]
    rw [stopped, kept, fraction, if_pos first, taken, left, List.append_nil,
      List.cons_append] at rule
    rwa [List.append_assoc]

theorem begins_name {text : String} (name : Tree.isName text = true) (apart : Apart more) :
    ∃ c cs, text.toList = c :: cs ∧ c.isAlpha = true ∧ text ∉ Token.keywords ∧
      Begins c (cs ++ more) ⟨.word, text.toList, more⟩ := by
  unfold Tree.isName at name
  split at name
  · cases name
  · rename_i c cs whole
    simp only [Bool.and_eq_true, List.all_eq_true, decide_eq_true_eq] at name
    obtain ⟨⟨letter, parts⟩, plain⟩ := name
    refine ⟨c, cs, whole, letter, plain, ?_⟩
    obtain ⟨taken, left⟩ := apart.span (show isWordPart ' ' = false by decide) parts
    have rule : Begins c (cs ++ more) _ := .word letter
    rwa [taken, left, ← whole] at rule

/-- Neither a blank nor a digit nor a letter. -/
def isSign (c : Char) : Bool := !Text.isBlank c && !c.isDigit && !c.isAlpha

theorem isSign_iff :
    isSign c = true ↔ ¬Text.isBlank c = true ∧ c.isDigit = false ∧ c.isAlpha = false := by
  simp [isSign, and_assoc]

theorem begins_operator {op : List Char} (known : op ∈ operators) (apart : Apart more) :
    ∃ c cs, op = c :: cs ∧ ¬Text.isBlank c = true ∧
      Begins c (cs ++ more) ⟨.operator, op, more⟩ := by
  have table : ∀ op ∈ operators, operator? op = some op ∧ (op.head? = some '/' → op.tail = []) ∧
      op.head?.all isSign = true := by decide
  obtain ⟨found, single, head⟩ := table op known
  obtain ⟨c, cs, rfl⟩ := List.exists_cons_of_ne_nil (operator?_ne_nil found)
  obtain ⟨visible, digit, letter⟩ := isSign_iff.mp head
  refine ⟨c, cs, rfl, visible, ?_⟩
  have found' : operator? (c :: (cs ++ more)) = some (c :: cs) := by
    rwa [← List.cons_append, apart.operator?_eq]
  have plain : Plain c (cs ++ more) := by
    refine ⟨?_, digit, letter⟩
    rintro rfl
    obtain rfl : cs = [] := single rfl
    exact ⟨apart.head?_ne (by decide), apart.head?_ne (by decide)⟩
  have rule := Begins.operator plain found'
  rwa [← List.cons_append, List.drop_left] at rule

theorem begins_delimiter (member : c ∈ delimiters) (apart : Apart more) :
    ¬Text.isBlank c = true ∧ Begins c more ⟨.delimiter c, [c], more⟩ := by
  have signs : delimiters.all isSign = true := by decide
  have others : (delimiters.all fun c => (operator? [c]).isNone) = true := by decide
  obtain ⟨visible, digit, letter⟩ := isSign_iff.mp (List.all_eq_true.mp signs c member)
  have none : operator? ([c] ++ more) = .none := by
    rw [apart.operator?_eq]
    exact Option.isNone_iff_eq_none.mp (List.all_eq_true.mp others c member)
  have slash : c ≠ '/' := by
    rintro rfl
    exact absurd member (by decide)
  exact ⟨visible, .delimiter ⟨fun same => absurd same slash, digit, letter⟩ none member⟩

end Lexeme

namespace Token

open Lexeme

variable {opened opened' opened'' more : List Char} {token : Token} {tokens others : List Token}

/-- The token is written so where a blank or nothing follows, and these parentheses are open
before and after it. -/
inductive Spelled : List Char → Token → List Char → Prop where
  | number {opened : List Char} {text : String} :
      Tree.isNumberText text = true → Spelled opened ⟨.number, text, .start⟩ opened
  | name {opened : List Char} {text : String} :
      Tree.isName text = true → Spelled opened ⟨.identifier, text, .start⟩ opened
  | operator {opened : List Char} (op : BinaryOp) :
      Spelled opened ⟨.operator, op.symbol, .start⟩ opened
  | left {opened : List Char} : Spelled opened ⟨.delimiter, "(", .start⟩ ('(' :: opened)
  | right {opened : List Char} : Spelled ('(' :: opened) ⟨.delimiter, ")", .start⟩ opened

theorem scanFrom_of_begins {c : Char} {cs chars : List Char} {form : LexemeClass}
    (whole : chars = c :: cs) (visible : ¬Text.isBlank c = true)
    (rule : Begins c (cs ++ more) ⟨form, chars, more⟩) (here : Location) (opened : List Char) :
    scanFrom here opened (chars ++ more) =
      (Lexeme.token ⟨form, chars, more⟩ here opened).1 ::
        scanFrom (here.after chars) (Lexeme.token ⟨form, chars, more⟩ here opened).2 more := by
  have text : chars ++ more = c :: (cs ++ more) := by rw [whole, List.cons_append]
  rw [text, scanFrom_cons visible, rule.first_eq]

theorem Spelled.scanFrom_eq (h : Spelled opened token opened') (apart : Apart more)
    (here : Location) :
    scanFrom here opened (token.text.toList ++ more) =
      { token with location := here } ::
        scanFrom (here.after token.text.toList) opened' more := by
  cases h with
  | number number =>
    obtain ⟨c, cs, whole, digit, rule⟩ := begins_number number apart
    rw [scanFrom_of_begins whole (not_isBlank_of_isDigit digit) rule]
    simp [Lexeme.token, String.ofList_toList]
  | name name =>
    obtain ⟨c, cs, whole, letter, plain, rule⟩ := begins_name name apart
    rw [scanFrom_of_begins whole (not_isBlank_of_isAlpha letter) rule]
    simp [Lexeme.token, String.ofList_toList, plain]
  | operator op =>
    have known : op.symbol.toList ∈ operators := by cases op <;> decide
    obtain ⟨c, cs, whole, visible, rule⟩ := begins_operator known apart
    rw [scanFrom_of_begins whole visible rule]
    simp [Lexeme.token, String.ofList_toList]
  | left =>
    obtain ⟨visible, rule⟩ := begins_delimiter (show '(' ∈ delimiters by decide) apart
    exact scanFrom_of_begins (show "(".toList = '(' :: [] from rfl) visible rule here opened
  | right =>
    obtain ⟨visible, rule⟩ := begins_delimiter (show ')' ∈ delimiters by decide) apart
    exact scanFrom_of_begins (show ")".toList = ')' :: [] from rfl) visible rule here _

/-- Tokens in a row are written so. -/
inductive SpelledAll : List Char → List Token → List Char → Prop where
  | nil {opened : List Char} : SpelledAll opened [] opened
  | cons {opened opened' opened'' : List Char} {token : Token} {tokens : List Token} :
      Spelled opened token opened' → SpelledAll opened' tokens opened'' →
      SpelledAll opened (token :: tokens) opened''

theorem SpelledAll.append (h : SpelledAll opened tokens opened')
    (h' : SpelledAll opened' others opened'') : SpelledAll opened (tokens ++ others) opened'' := by
  induction h with
  | nil => exact h'
  | cons first _ ih => exact .cons first (ih h')

/-- A token is what stands before the first blank of the words. -/
theorem toList_intercalate_cons (text : String) (texts : List String) :
    ∃ more, (" ".intercalate (text :: texts)).toList = text.toList ++ more ∧
      (texts = [] ∧ more = [] ∨ more = ' ' :: (" ".intercalate texts).toList) := by
  cases texts with
  | nil => exact ⟨[], by simp, .inl ⟨rfl, rfl⟩⟩
  | cons next texts => exact ⟨_, by simp, .inr rfl⟩

/-- Words with blanks between them are cut into their tokens. -/
theorem SpelledAll.scanFrom_eq (h : SpelledAll opened tokens opened') (here : Location) :
    (scanFrom here opened (" ".intercalate (tokens.map Token.text)).toList).map unplaced =
      tokens := by
  induction h generalizing here with
  | nil => simp [scanFrom]
  | @cons opened opened' _ token tokens first _ ih =>
    obtain ⟨more, written, rest⟩ := toList_intercalate_cons token.text (tokens.map Token.text)
    have apart : Apart more := rest.imp And.right fun blank => ⟨_, blank⟩
    have start : unplaced { token with location := here } = token := by
      cases first <;> rfl
    rw [List.map_cons, written, first.scanFrom_eq apart, List.map_cons, start]
    refine congrArg (token :: ·) ?_
    rcases rest with ⟨last, rfl⟩ | rfl
    · have none : tokens = [] := List.map_eq_nil_iff.mp last
      rw [none, scanFrom, List.map_nil]
    · rw [scanFrom_blank (by decide)]
      exact ih _

/-- None of the words is a comment. -/
theorem SpelledAll.kind_ne (h : SpelledAll opened tokens opened') :
    ∀ token ∈ tokens, token.kind ≠ .comment := by
  induction h with
  | nil => simp
  | cons first _ ih =>
    refine List.forall_mem_cons.mpr ⟨?_, ih⟩
    cases first <;> simp

end Token

end Quadrupler
