import Mathlib.Data.List.TakeWhile
import Quadrupler.Proofs.Token.Segments
set_option autoImplicit false

/-!
# Printing tokens and cutting them again

A lexeme that stands alone is cut as itself: none needs what follows it to be recognized, and
none changes when a line feed follows.  So the texts of tokens, each on a line of its own, are
cut into the same tokens again, with the same brackets open at each of them.
-/

namespace Quadrupler

/-! ## Lexemes that stand alone -/

namespace Lexeme

variable {c : Char} {cs : List Char} {lexeme : Lexeme}

theorem dropWhile_takeWhile (p : Char → Bool) (cs : List Char) :
    (cs.takeWhile p).dropWhile p = [] :=
  List.dropWhile_eq_nil_iff.mpr fun _ member => List.mem_takeWhile_imp member

theorem closeComment_body {body rest : List Char} (h : closeComment cs = some (body, rest)) :
    closeComment body = some (body, []) := by
  fun_induction closeComment cs generalizing body rest with
  | case1 => cases h
  | case2 tail =>
    cases h
    rfl
  | case3 c tail differs ih =>
    obtain ⟨⟨inner, after⟩, found, same⟩ := Option.map_eq_some_iff.mp h
    cases same
    have differs' : ∀ rest', c = '*' → inner = '/' :: rest' → False := by
      intro rest' star slash
      have whole := closeComment_append found
      rw [slash, List.cons_append] at whole
      exact differs _ star whole.symm
    rw [closeComment.eq_3 _ _ differs', ih found]
    rfl

/-- The point and the digits of a number are no part of its digits before, and all there is
of a fraction. -/
theorem fraction_fst (cs : List Char) :
    (fraction cs).1.takeWhile Char.isDigit = [] ∧
      (fraction cs).1.dropWhile Char.isDigit = (fraction cs).1 ∧
      fraction (fraction cs).1 = ((fraction cs).1, []) := by
  have point : Char.isDigit '.' = false := by decide
  fun_cases fraction cs with
  | case1 d rest digit =>
    refine ⟨by simp [point], by simp [point], ?_⟩
    rw [fraction, if_pos digit, List.takeWhile_idem, dropWhile_takeWhile]
  | case2 d rest other => exact ⟨rfl, rfl, rfl⟩
  | case3 other => exact ⟨rfl, rfl, rfl⟩

theorem operator?_eq_none_of_shorter {op ops : List Char} (h : operator? ops = none)
    (shorter : op <+: ops) : operator? op = none := by
  unfold operator? at h ⊢
  rw [List.find?_eq_none] at h ⊢
  intro known member begins
  refine h known member ?_
  rw [List.isPrefixOf_iff_prefix] at begins ⊢
  exact begins.trans shorter

/-- Without what follows it, a lexeme is the same. -/
theorem Begins.alone (h : Begins c cs lexeme) (closed : lexeme.form ≠ .openComment) :
    ∃ tail, lexeme.chars = c :: tail ∧ Begins c tail ⟨lexeme.form, lexeme.chars, []⟩ := by
  cases h with
  | lineComment slash head =>
    refine ⟨_, rfl, ?_⟩
    have head' : (cs.takeWhile (· ≠ '\n')).head? = some '/' := by
      obtain ⟨tail, rfl⟩ := List.head?_eq_some_iff.mp head
      rfl
    have rule := Begins.lineComment slash head'
    rwa [List.takeWhile_idem, dropWhile_takeWhile] at rule
  | blockComment slash star found =>
    exact ⟨_, rfl, .blockComment slash rfl (closeComment_body found)⟩
  | openComment slash star unclosed => exact absurd rfl closed
  | number digit =>
    refine ⟨_, rfl, ?_⟩
    obtain ⟨digits, point, whole⟩ := fraction_fst (cs.dropWhile Char.isDigit)
    have all : ∀ d ∈ cs.takeWhile Char.isDigit, d.isDigit = true :=
      fun d member => List.mem_takeWhile_imp member
    have rule :
        Begins c (cs.takeWhile Char.isDigit ++ (fraction (cs.dropWhile Char.isDigit)).1) _ :=
      .number digit
    rwa [List.takeWhile_append_of_pos all, List.dropWhile_append_of_pos all, digits, point, whole,
      List.append_nil] at rule
  | word letter =>
    refine ⟨_, rfl, ?_⟩
    have rule : Begins c (cs.takeWhile isWordPart) _ := .word letter
    rwa [List.takeWhile_idem, dropWhile_takeWhile] at rule
  | @operator op plain found =>
    have known : ∀ op ∈ operators,
        operator? op = some op ∧ (op.head? = some '/' → op.tail = []) := by decide
    obtain ⟨self, slash⟩ := known op (List.mem_of_find?_eq_some found)
    obtain ⟨d, tail, rfl⟩ := List.exists_cons_of_ne_nil (operator?_ne_nil found)
    obtain rfl : d = c := (List.cons.inj (operator?_append found)).1
    refine ⟨tail, rfl, ?_⟩
    have plain' : Plain d tail := by
      refine ⟨fun same => ?_, plain.notDigit, plain.notLetter⟩
      subst same
      have none : tail = [] := slash rfl
      simp [none]
    have rule := Begins.operator plain' self
    rwa [List.drop_length] at rule
  | delimiter plain none member =>
    have plain' : Plain c [] := ⟨fun _ => by simp, plain.notDigit, plain.notLetter⟩
    exact ⟨[], rfl, .delimiter plain' (operator?_eq_none_of_shorter none (by simp)) member⟩
  | stray plain none other =>
    have plain' : Plain c [] := ⟨fun _ => by simp, plain.notDigit, plain.notLetter⟩
    exact ⟨[], rfl, .stray plain' (operator?_eq_none_of_shorter none (by simp)) other⟩

theorem first_alone (closed : (first c cs).form ≠ .openComment) :
    ∃ tail, (first c cs).chars = c :: tail ∧
      first c tail = ⟨(first c cs).form, (first c cs).chars, []⟩ := by
  obtain ⟨tail, chars, rule⟩ := (begins_first c cs).alone closed
  exact ⟨tail, chars, rule.first_eq⟩

end Lexeme

/-! ## Texts -/

namespace Token

/-- Nothing follows, or a line of its own. -/
def Separated (more : List Char) : Prop := more = [] ∨ ∃ ds, more = '\n' :: ds

/-- A lexeme is cut off as it is, if nothing follows on its line. -/
theorem scanFrom_lexeme {c : Char} {cs : List Char} (visible : ¬Text.isBlank c = true)
    (closed : (Lexeme.first c cs).form ≠ .openComment) {more : List Char}
    (separated : Separated more) (here : Location) (opened : List Char) :
    scanFrom here opened ((Lexeme.first c cs).chars ++ more) =
      ((Lexeme.first c cs).token here opened).1 ::
        scanFrom (here.after (Lexeme.first c cs).chars) ((Lexeme.first c cs).token here opened).2
          more := by
  obtain ⟨tail, chars, alone⟩ := Lexeme.first_alone closed
  have cut : Lexeme.first c (tail ++ more) =
      ⟨(Lexeme.first c cs).form, (Lexeme.first c cs).chars, more⟩ := by
    rcases separated with rfl | ⟨ds, rfl⟩
    · rw [List.append_nil]
      exact alone
    · have closed' : (Lexeme.first c tail).form ≠ .openComment := by
        rw [alone]
        exact closed
      rw [Lexeme.first_append_newline closed', alone]
      rfl
  have text : (Lexeme.first c cs).chars ++ more = c :: (tail ++ more) := by
    rw [chars, List.cons_append]
  rw [text, scanFrom_cons visible, cut]
  rfl

theorem toList_print_cons (token : Token) (tokens : List Token) :
    ∃ more, (print (token :: tokens)).toList = token.text.toList ++ more ∧
      (tokens = [] ∧ more = [] ∨ more = '\n' :: (print tokens).toList) := by
  cases tokens with
  | nil => exact ⟨[], by simp [print], .inl ⟨rfl, rfl⟩⟩
  | cons next tokens => exact ⟨_, by simp [print], .inr rfl⟩

/-- The printed tokens of a text without a fault are cut into the same tokens, wherever they
stand. -/
theorem scanFrom_print {here : Location} {opened cs : List Char}
    (h : Faultless (scanFrom here opened cs)) (there : Location) :
    (scanFrom there opened (print (scanFrom here opened cs)).toList).map unplaced =
      (scanFrom here opened cs).map unplaced := by
  fun_induction scanFrom here opened cs generalizing there with
  | case1 here opened => simp [print, scanFrom]
  | case2 here opened c cs blank ih => exact ih h there
  | case3 here opened c cs visible lexeme made ih =>
    obtain ⟨sound, others⟩ := faultless_cons.mp h
    obtain ⟨more, printed, rest⟩ := toList_print_cons made.1
      (scanFrom (here.after lexeme.chars) made.2 lexeme.rest)
    have text : made.1.text.toList = lexeme.chars := by
      rw [Lexeme.token_text sound, String.toList_ofList]
    have separated : Separated more := rest.imp And.right fun line => ⟨_, line⟩
    obtain ⟨same, inside⟩ := Lexeme.token_moved sound there []
    simp only [List.append_nil] at same inside
    rw [printed, text, scanFrom_lexeme visible (Lexeme.form_ne_openComment sound) separated,
      List.map_cons, List.map_cons, same, inside]
    refine congrArg (made.1.unplaced :: ·) ?_
    rcases rest with ⟨last, rfl⟩ | rfl
    · rw [last, scanFrom]
    · rw [scanFrom_blank (by decide)]
      exact ih others _

theorem scan_print_unplaced {source : String} (h : Faultless (scan source)) :
    (scan (print (scan source))).map unplaced = (scan source).map unplaced :=
  scanFrom_print h .start

end Token

end Quadrupler
