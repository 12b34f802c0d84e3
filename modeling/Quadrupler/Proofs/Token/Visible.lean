import Quadrupler.Proofs.Token.Longest
import Quadrupler.Proofs.Token.Words
set_option autoImplicit false

/-!
# Tokens hold no blanks

The texts of numbers, words, operators and delimiters are made of characters that can be seen.
So none of these tokens goes on in another line, and the place behind it is found by counting
its characters.
-/

namespace Quadrupler

namespace Location

/-- Without a line feed the line stays and every character is one column. -/
theorem after_of_not_mem {cs : List Char} (h : '\n' ∉ cs) (here : Location) :
    here.after cs = ⟨here.line, here.column + cs.length⟩ := by
  induction cs generalizing here with
  | nil => rfl
  | cons c cs ih =>
    obtain ⟨feed, others⟩ := List.ne_and_not_mem_of_not_mem_cons h
    rw [after_cons, ih others, next, if_neg (Ne.symm feed), List.length_cons]
    simp only [Location.mk.injEq, true_and]
    omega

end Location

namespace Lexeme

variable {text : List Char}

/-- No character of the text is a blank. -/
def Visible (text : List Char) : Prop := ∀ c ∈ text, ¬Text.isBlank c = true

theorem IsDigits.visible (h : IsDigits text) : Visible text :=
  fun c member => not_isBlank_of_isDigit (h.2 c member)

theorem IsNumber.visible (h : IsNumber text) : Visible text := by
  rcases h with digits | ⟨whole, part, rfl, digits, digits'⟩
  · exact digits.visible
  · exact List.forall_mem_append.mpr
      ⟨digits.visible, List.forall_mem_cons.mpr ⟨by decide, digits'.visible⟩⟩

theorem IsWord.visible (h : IsWord text) : Visible text := by
  obtain ⟨c, cs, rfl, letter, parts⟩ := h
  refine List.forall_mem_cons.mpr ⟨not_isBlank_of_isAlpha letter, fun d member => ?_⟩
  rcases parts d member with part | rfl
  · rcases (Bool.or_eq_true _ _).mp part with letter | digit
    · exact not_isBlank_of_isAlpha letter
    · exact not_isBlank_of_isDigit digit
  · decide

/-- What a token takes by the rule for its kind can be seen, unless it is a comment. -/
theorem Munches.visible {cs : List Char} {kind : TokenKind} (h : Munches cs kind text)
    (comment : kind ≠ .comment) : Visible text := by
  cases h with
  | keyword longest _ => exact longest.fits.visible
  | identifier longest _ => exact longest.fits.visible
  | number longest => exact longest.fits.visible
  | operator longest _ _ =>
    have known := mem_operators_iff.mpr longest.fits
    have table : (operators.all fun op => op.all fun d => !Text.isBlank d) = true := by decide
    intro d member
    simpa using List.all_eq_true.mp (List.all_eq_true.mp table text known) d member
  | lineComment _ => exact absurd rfl comment
  | blockComment _ => exact absurd rfl comment

theorem Begins.delimiter_text {c : Char} {cs opened : List Char} {lexeme : Lexeme}
    {here : Location} (h : Begins c cs lexeme)
    (kind : (lexeme.token here opened).1.kind = .delimiter) :
    c ∈ delimiters ∧ (lexeme.token here opened).1.text = String.singleton c := by
  cases h with
  | word letter =>
    simp only [token] at kind
    split at kind <;> cases kind
  | delimiter plain none member =>
    cases found : Brackets.step? opened c with
    | none => simp [token, found] at kind
    | some opened' => simp [token, found, member]
  | _ => cases kind

end Lexeme

namespace Token

variable {token : Token} {here : Location} {opened cs : List Char}

theorem visible_of_mem (h : token ∈ scanFrom here opened cs) (comment : token.kind ≠ .comment)
    (fault : token.kind ≠ .fault) : Lexeme.Visible token.text.toList := by
  obtain ⟨before, c, rest, opened', -, rfl⟩ := exists_first_of_mem h
  by_cases delimiter : ((Lexeme.first c rest).token (here.after before) opened').1.kind = .delimiter
  · obtain ⟨known, text⟩ := (Lexeme.begins_first c rest).delimiter_text delimiter
    have table : (Lexeme.delimiters.all fun d => !Text.isBlank d) = true := by decide
    rw [text]
    intro d member
    obtain rfl : d = c := by simpa using member
    simpa using List.all_eq_true.mp table d known
  · exact ((Lexeme.begins_first c rest).munches delimiter fault).visible comment

/-- The place behind a token that is neither a comment nor a fault is where its characters
lead to. -/
theorem stop_of_mem (h : token ∈ scanFrom here opened cs) (comment : token.kind ≠ .comment)
    (fault : token.kind ≠ .fault) : token.stop = token.location.after token.text.toList := by
  have line : '\n' ∉ token.text.toList :=
    fun feed => visible_of_mem h comment fault '\n' feed (by decide)
  rw [Location.after_of_not_mem line]
  rfl

end Token

end Quadrupler
