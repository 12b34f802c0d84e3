import Quadrupler.Proofs.Token.Longest
set_option autoImplicit false

/-!
# Brackets of a text

While a text is cut into tokens, the open brackets are those that the delimiters so far have
opened and not closed; comments and faults do not count.  So the brackets among the delimiters
nest as far as they go, and a closing bracket is a fault exactly if its partner is not the
innermost bracket that is still open.

`Nested` and `Innermost` say what this means of a row of brackets, without a stack.  `Leaves`
ties them to the stack: a row leaves brackets open when between one of them and the next there
are only nested ones.
-/

namespace Quadrupler

namespace Brackets

/-- The opening brackets, each with the one that closes it. -/
def pairs : List (Char × Char) := [('(', ')'), ('{', '}'), ('[', ']')]

/-- Every bracket has its partner, and pairs do not overlap. -/
inductive Nested : List Char → Prop where
  | nil : Nested []
  | pair {left right : Char} {inner after : List Char} : (left, right) ∈ pairs →
      Nested inner → Nested after → Nested (left :: inner ++ right :: after)

/-- The bracket is open, and none behind it is. -/
def Innermost (left : Char) (brackets : List Char) : Prop :=
  ∃ before behind, brackets = before ++ left :: behind ∧ Nested behind

variable {left right c : Char} {brackets others opened opened' : List Char}

theorem Nested.append (h : Nested brackets) (h' : Nested others) : Nested (brackets ++ others) := by
  induction h with
  | nil => exact h'
  | pair partners inner _ _ ih =>
    rw [List.append_assoc, List.cons_append]
    exact .pair partners inner ih

theorem nested_enclosed (partners : (left, right) ∈ pairs) (h : Nested brackets) :
    Nested (left :: brackets ++ [right]) :=
  .pair partners h .nil

/-! ## The brackets that a row leaves open -/

/-- The row of brackets leaves these ones open, the innermost first. -/
inductive Leaves : List Char → List Char → Prop where
  | closed {brackets : List Char} : Nested brackets → Leaves brackets []
  | opened {left right : Char} {brackets behind opened : List Char} : (left, right) ∈ pairs →
      Leaves brackets opened → Nested behind →
      Leaves (brackets ++ left :: behind) (left :: opened)

theorem Leaves.append (h : Leaves brackets opened) (h' : Nested others) :
    Leaves (brackets ++ others) opened := by
  cases h with
  | closed nested => exact .closed (nested.append h')
  | opened partners outer behind =>
    rw [List.append_assoc, List.cons_append]
    exact .opened partners outer (behind.append h')

/-- Whatever is open can be closed. -/
theorem Leaves.exists_nested (h : Leaves brackets opened) :
    ∃ more, Nested (brackets ++ more) := by
  suffices ∀ others, Nested others → ∃ more, Nested (brackets ++ others ++ more) by
    obtain ⟨more, nested⟩ := this [] .nil
    exact ⟨more, by rwa [List.append_nil] at nested⟩
  -- What is nested behind the brackets becomes part of what the outer pair encloses.
  induction h with
  | closed nested =>
    intro others h'
    exact ⟨[], by simpa using nested.append h'⟩
  | @opened left right _ behind _ partners _ inner ih =>
    intro others h'
    obtain ⟨more, nested⟩ := ih _ (nested_enclosed partners (inner.append h'))
    exact ⟨right :: more, by simpa using nested⟩

theorem step?_left (partners : (left, right) ∈ pairs) (opened : List Char) :
    step? opened left = some (left :: opened) := by
  simp only [pairs, List.mem_cons, Prod.mk.injEq, List.not_mem_nil, or_false] at partners
  obtain ⟨rfl, rfl⟩ | ⟨rfl, rfl⟩ | ⟨rfl, rfl⟩ := partners <;> rfl

theorem step?_right (partners : (left, right) ∈ pairs) (opened : List Char) :
    step? opened right = if opened.head? = some left then some opened.tail else none := by
  simp only [pairs, List.mem_cons, Prod.mk.injEq, List.not_mem_nil, or_false] at partners
  obtain ⟨rfl, rfl⟩ | ⟨rfl, rfl⟩ | ⟨rfl, rfl⟩ := partners <;> rfl

theorem Nested.foldlM_eq (h : Nested brackets) (opened : List Char) :
    brackets.foldlM step? opened = some opened := by
  induction h generalizing opened with
  | nil => rfl
  | pair partners _ _ inner after =>
    simp only [List.cons_append, List.foldlM_cons, List.foldlM_append, step?_left partners,
      Option.bind_eq_bind, Option.bind_some, inner, step?_right partners, List.head?_cons, if_true,
      List.tail_cons, after]

theorem Leaves.foldlM_eq (h : Leaves brackets opened) :
    brackets.foldlM step? [] = some opened := by
  induction h with
  | closed nested => exact nested.foldlM_eq []
  | opened partners _ behind outer =>
    simp only [List.foldlM_append, List.foldlM_cons, outer, Option.bind_eq_bind, Option.bind_some,
      step?_left partners, behind.foldlM_eq]

/-- The innermost bracket is the first of those left open. -/
theorem Leaves.head?_eq_some_iff (h : Leaves brackets opened) (partners : (left, right) ∈ pairs) :
    opened.head? = some left ↔ Innermost left brackets := by
  constructor
  · intro first
    cases h with
    | closed _ => cases first
    | opened _ _ behind =>
      cases first
      exact ⟨_, _, rfl, behind⟩
  · rintro ⟨before, behind, rfl, nested⟩
    have whole := h.foldlM_eq
    rw [List.foldlM_append] at whole
    obtain ⟨outer, -, whole⟩ := Option.bind_eq_some_iff.mp whole
    rw [List.foldlM_cons, step?_left partners, Option.bind_eq_bind, Option.bind_some,
      nested.foldlM_eq] at whole
    cases whole
    rfl

/-! ## Single brackets -/

/-- Opening and closing brackets. -/
def all : List Char := pairs.flatMap fun pair => [pair.1, pair.2]

theorem exists_pair_of_mem_all (h : c ∈ all) : ∃ d, (c, d) ∈ pairs ∨ (d, c) ∈ pairs := by
  obtain ⟨⟨left, right⟩, partners, member⟩ := List.mem_flatMap.mp h
  simp only [List.mem_cons, List.not_mem_nil, or_false] at member
  obtain rfl | rfl := member
  · exact ⟨right, .inl partners⟩
  · exact ⟨left, .inr partners⟩

theorem step?_of_not_mem (h : c ∉ all) (opened : List Char) : step? opened c = some opened := by
  simp only [all, pairs, List.flatMap_cons, List.flatMap_nil, List.cons_append, List.nil_append,
    List.mem_cons, List.not_mem_nil, or_false, not_or] at h
  obtain ⟨h₁, h₂, h₃, h₄, h₅, h₆⟩ := h
  have none : opener? c = none := by
    unfold opener?
    split <;> simp_all
  simp [step?, none, h₁, h₃, h₅]

/-- One bracket more changes what is left open as the stack does. -/
theorem Leaves.step (h : Leaves brackets opened) (bracket : c ∈ all)
    (done : step? opened c = some opened') : Leaves (brackets ++ [c]) opened' := by
  obtain ⟨d, partners | partners⟩ := exists_pair_of_mem_all bracket
  · rw [step?_left partners] at done
    cases done
    exact .opened partners h .nil
  · rw [step?_right partners] at done
    split at done
    · rename_i first
      cases done
      cases h with
      | closed _ => cases first
      | opened _ outer behind =>
        cases first
        rw [List.append_assoc]
        exact outer.append (nested_enclosed partners behind)
    · cases done

end Brackets

open Brackets

/-! ## Brackets among tokens -/

namespace Token

/-- The bracket that a delimiter is. -/
def bracket? (token : Token) : Option Char :=
  if token.kind = .delimiter then Brackets.all.find? fun c => token.text = String.singleton c
  else none

/-- The brackets among the delimiters. -/
def brackets (tokens : List Token) : List Char := tokens.filterMap bracket?

theorem brackets_append (tokens others : List Token) :
    brackets (tokens ++ others) = brackets tokens ++ brackets others :=
  List.filterMap_append

theorem brackets_cons_none {token : Token} (h : token.bracket? = none) (tokens : List Token) :
    brackets (token :: tokens) = brackets tokens :=
  List.filterMap_cons_none h

theorem brackets_cons_some {token : Token} {c : Char} (h : token.bracket? = some c)
    (tokens : List Token) : brackets (token :: tokens) = c :: brackets tokens :=
  List.filterMap_cons_some h

theorem bracket?_of_kind {token : Token} (h : token.kind ≠ .delimiter) : token.bracket? = none :=
  if_neg h

theorem bracket?_delimiter (c : Char) (here : Location) :
    bracket? ⟨.delimiter, String.singleton c, here⟩ =
      if c ∈ Brackets.all then some c else none := by
  have same (d : Char) : String.singleton c = String.singleton d ↔ c = d := by
    rw [← String.toList_inj]
    simp
  simp only [bracket?, if_true, same]
  split
  · rename_i bracket
    obtain ⟨d, found⟩ : ∃ d, Brackets.all.find? (fun d => decide (c = d)) = some d := by
      rw [← Option.isSome_iff_exists, List.find?_isSome]
      exact ⟨c, bracket, decide_eq_true rfl⟩
    have equal : c = d := by simpa using List.find?_some found
    rw [found, equal]
  · rename_i other
    rw [List.find?_eq_none]
    intro d member equal
    exact other (of_decide_eq_true equal ▸ member)

end Token

namespace Lexeme

/-- A bracket is a lexeme of its own, whatever follows. -/
theorem begins_bracket {c : Char} (bracket : c ∈ Brackets.all) (cs : List Char) :
    Begins c cs ⟨.delimiter c, [c], cs⟩ := by
  have table : (Brackets.all.all fun d => decide (d ∈ delimiters) && !d.isDigit && !d.isAlpha &&
      operators.all fun op => decide (op.head? ≠ some d)) = true := by decide
  have row := List.all_eq_true.mp table c bracket
  simp only [Bool.and_eq_true, decide_eq_true_eq, Bool.not_eq_true', List.all_eq_true] at row
  obtain ⟨⟨⟨member, digit⟩, letter⟩, signs⟩ := row
  have slash : c ≠ '/' := by
    rintro rfl
    exact absurd member (by decide)
  have none : operator? (c :: cs) = Option.none := by
    rw [operator?, List.find?_eq_none]
    intro op known front
    obtain ⟨tail, whole⟩ := List.isPrefixOf_iff_prefix.mp front
    cases op with
    | nil => exact absurd known (by decide)
    | cons d op =>
      obtain ⟨rfl, -⟩ := List.cons.inj whole
      exact signs _ known rfl
  exact .delimiter ⟨fun same => absurd same slash, digit, letter⟩ none member

end Lexeme

/-- A lexeme changes the open brackets as the brackets of its token do. -/
theorem Lexeme.Begins.leaves {c : Char} {cs brackets opened : List Char} {lexeme : Lexeme}
    (h : Begins c cs lexeme) (here : Location) (before : Leaves brackets opened) :
    Leaves (brackets ++ Token.brackets [(lexeme.token here opened).1])
      (lexeme.token here opened).2 := by
  have unchanged {token : Token} (kind : token.kind ≠ .delimiter) :
      Leaves (brackets ++ Token.brackets [token]) opened := by
    simpa [Token.brackets, Token.bracket?_of_kind kind] using before
  cases h with
  | word letter =>
    refine unchanged ?_
    simp only [token]
    split <;> exact TokenKind.noConfusion
  | delimiter plain none member =>
    cases found : step? opened c with
    | none =>
      simp only [token, found]
      exact unchanged TokenKind.noConfusion
    | some opened' =>
      simp only [token, found, Token.brackets, List.filterMap_cons, List.filterMap_nil]
      have text : String.ofList [c] = String.singleton c := rfl
      rw [text, Token.bracket?_delimiter]
      by_cases bracket : c ∈ Brackets.all
      · rw [if_pos bracket]
        exact before.step bracket found
      · rw [if_neg bracket, List.append_nil]
        rw [step?_of_not_mem bracket] at found
        cases found
        exact before
  | _ => exact unchanged TokenKind.noConfusion

namespace Token

variable {here : Location} {opened cs : List Char} {before after : List Token}

/-- The first token is that of the lexeme behind the first blanks, and the others are cut behind
it. -/
theorem exists_first_of_cons {token : Token} (h : scanFrom here opened cs = token :: after) :
    ∃ blanks c rest, cs = blanks ++ c :: rest ∧
      token = ((Lexeme.first c rest).token (here.after blanks) opened).1 ∧
      scanFrom (here.after (blanks ++ (Lexeme.first c rest).chars))
        ((Lexeme.first c rest).token (here.after blanks) opened).2
        (Lexeme.first c rest).rest = after := by
  obtain ⟨blanks, behind, rfl, blank, visible⟩ := exists_blanks cs
  rw [scanFrom_blanks blank] at h
  cases behind with
  | nil =>
    rw [scanFrom] at h
    cases h
  | cons c rest =>
    have shown : Text.isBlank c = false := visible c rfl
    rw [scanFrom_cons (by simp [shown]), ← Location.after_append] at h
    obtain ⟨first, others⟩ := List.cons.inj h
    exact ⟨blanks, c, rest, rfl, first.symm, others⟩

/-- Cutting goes on behind some of the tokens from what they leave open. -/
theorem exists_scanFrom_of_append (h : scanFrom here opened cs = before ++ after) :
    ∃ earlier later opened', cs = earlier ++ later ∧
      scanFrom (here.after earlier) opened' later = after ∧
      ∀ brackets, Leaves brackets opened → Leaves (brackets ++ Token.brackets before) opened' := by
  induction before generalizing here opened cs with
  | nil => exact ⟨[], cs, opened, rfl, h, fun brackets leaves => by simpa [Token.brackets]⟩
  | cons token before ih =>
    obtain ⟨blanks, c, tail, rfl, rfl, others⟩ := exists_first_of_cons h
    obtain ⟨earlier, later, opened', split, rest, leaves⟩ := ih others
    refine ⟨blanks ++ (Lexeme.first c tail).chars ++ earlier, later, opened', ?_, ?_, ?_⟩
    · rw [List.append_assoc, List.append_assoc, ← split, Lexeme.chars_append_rest]
    · rw [← rest, Location.after_append]
    · intro brackets outer
      rw [← List.singleton_append, brackets_append, ← List.append_assoc]
      exact leaves _ ((Lexeme.begins_first c tail).leaves _ outer)

theorem exists_leaves (source : String) : ∃ opened, Leaves (brackets (scan source)) opened := by
  obtain ⟨-, -, opened, -, -, leaves⟩ :=
    exists_scanFrom_of_append (List.append_nil (scan source)).symm
  exact ⟨opened, leaves [] (.closed .nil)⟩

/-- The lexeme of a token, in front of what follows it in the text, and the brackets that the
tokens before it leave open. -/
theorem exists_first_of_append {token : Token}
    (h : scanFrom here opened cs = before ++ token :: after) :
    ∃ earlier c rest opened', cs = earlier ++ c :: rest ∧
      token = ((Lexeme.first c rest).token (here.after earlier) opened').1 ∧
      ∀ brackets, Leaves brackets opened → Leaves (brackets ++ Token.brackets before) opened' := by
  obtain ⟨earlier, later, opened', rfl, rest, leaves⟩ := exists_scanFrom_of_append h
  obtain ⟨blanks, c, tail, rfl, rfl, -⟩ := exists_first_of_cons rest
  exact ⟨earlier ++ blanks, c, tail, opened', by rw [List.append_assoc],
    by rw [Location.after_append], leaves⟩

/-- A closing bracket in the text is a delimiter, if its partner is the innermost open bracket of
the tokens before it, and otherwise a fault. -/
theorem token_of_closing {source : String} {left right : Char} {rest : List Char} {token : Token}
    (h : scan source = before ++ token :: after) (partners : (left, right) ∈ pairs)
    (there : token.StandsBefore source (right :: rest)) :
    (Innermost left (brackets before) →
        token.kind = .delimiter ∧ token.text = String.singleton right) ∧
      (¬Innermost left (brackets before) →
        token.kind = .fault ∧ token.text = (LexicalFault.unmatched right).message) := by
  obtain ⟨earlier, c, tail, opened, split, rfl, leaves⟩ := exists_first_of_append h
  obtain ⟨earlier', split', place⟩ := there
  rw [Lexeme.token_location] at place
  obtain rfl : earlier = earlier' :=
    Location.eq_of_after_eq ⟨_, split.symm⟩ ⟨_, split'.symm⟩ place
  obtain ⟨rfl, rfl⟩ := List.cons.inj (List.append_cancel_left (split.symm.trans split'))
  have closing : c ∈ Brackets.all :=
    List.mem_flatMap.mpr ⟨(left, c), partners, List.mem_cons_of_mem _ List.mem_cons_self⟩
  have here : Leaves (brackets before) opened := leaves [] (.closed .nil)
  rw [← here.head?_eq_some_iff partners, (Lexeme.begins_bracket closing tail).first_eq]
  constructor
  · intro first
    have closes : step? opened c = some opened.tail := by rw [step?_right partners, if_pos first]
    simp [Lexeme.token, closes]
  · intro other
    have unmatched : step? opened c = none := by rw [step?_right partners, if_neg other]
    simp [Lexeme.token, unmatched]

end Token

end Quadrupler
