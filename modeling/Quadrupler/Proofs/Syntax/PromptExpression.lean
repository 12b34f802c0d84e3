import Quadrupler.Proofs.Syntax.Prompt
import Quadrupler.Proofs.Syntax.Statement
set_option autoImplicit false

/-!
# Expressions get stuck as early as possible

What may continue an expression is a language of its own on each level of precedence, so
that a chain can be continued behind an operand that has been read before: behind a name,
the token that follows decides between assignments, steps and expressions.
-/

namespace Quadrupler.Syntax

open Grammar
open scoped Computability

/-! ## Languages of expressions -/

/-- An operator with `n` levels of precedence above it. -/
def operators (n : Nat) : Language Token :=
  {used | ∃ (token : Token) (op : BinaryOp), token.kind = .operator ∧
    (token.text, op) ∈ signs n ∧ used = [token]}

/-- What may continue a chain with `n` levels of precedence above it. -/
def continuations (n : Nat) : Language Token := (operators n * derived (Level n))∗

/-- What a word becomes when it is continued on each of the `n` tightest levels. -/
def climbs (L : Language Token) : Nat → Language Token
  | 0 => L
  | n + 1 => climbs L n * continuations n

/-- Chains of any number of operators. -/
def chains (n : Nat) : Language Token := {used | ∃ k t levels, Chain n k used t levels}

theorem level_mul_continuations (n : Nat) :
    derived (Level n) * continuations n ≤ derived (Level (n + 1)) := by
  have first : derived (Level n) ≤ chains n := by
    rintro used ⟨t, levels, h⟩
    exact ⟨0, t, levels, .single h⟩
  have next : chains n * (operators n * derived (Level n)) ≤ chains n := by
    rintro _ ⟨used, ⟨k, t, m, h⟩, _, ⟨_, ⟨token, op, hkind, hop, rfl⟩,
      others, ⟨u, levels, h'⟩, rfl⟩, rfl⟩
    exact ⟨k + 1, _, _, .more h hkind hop h'⟩
  have whole : chains n ≤ derived (Level (n + 1)) := by
    rintro used ⟨k, t, levels, h⟩
    exact ⟨t, levels, .chain h⟩
  calc derived (Level n) * continuations n
      ≤ chains n * (operators n * derived (Level n))∗ := mul_le_mul_left first _
    _ ≤ chains n := mul_kstar_le_self next
    _ ≤ derived (Level (n + 1)) := whole

theorem climbs_le (n : Nat) {L : Language Token} (h : L ≤ derived Grammar.Operand) :
    climbs L n ≤ derived (Level n) := by
  induction n with
  | zero =>
    intro used word
    obtain ⟨t, levels, derivation⟩ := h word
    exact ⟨t, levels, .operand derivation⟩
  | succ n ih => exact (mul_le_mul_left ih _).trans (level_mul_continuations n)

theorem mul_climbs (K L : Language Token) (n : Nat) : K * climbs L n = climbs (K * L) n := by
  induction n with
  | zero => rfl
  | succ n ih => rw [climbs, climbs, ← mul_assoc, ih]

theorem viable_level (n : Nat) : Viable (derived (Level n)) [] := by
  refine ⟨[⟨.number, "0", .start⟩], .number "0" .start, 0, ?_⟩
  induction n with
  | zero => exact .operand (.number rfl)
  | succ n ih => exact .chain (.single ih)

theorem viable_operand : Viable (derived Grammar.Operand) [] :=
  ⟨[⟨.number, "0", .start⟩], mem_derived (.number rfl) rfl⟩

/-- An operator and what follows it continue a chain. -/
theorem continuations_quotient {n : Nat} {token : Token} (h : [token] ∈ operators n) :
    derived (Level n) * continuations n ≤ (continuations n).leftQuotient [token] := by
  intro used word
  have whole : [token] ++ used ∈ operators n * (derived (Level n) * continuations n) :=
    Language.append_mem_mul h word
  rw [← mul_assoc] at whole
  have repeated : operators n * derived (Level n) * continuations n ≤ continuations n :=
    mul_kstar_le_kstar
  exact repeated whole

/-! ## Expressions -/

theorem operatorOf_congr {precedence : Nat} {tokens other : List Token}
    (h : other.head? = tokens.head?) (none : operatorOf precedence tokens = none) :
    operatorOf precedence other = Option.none := by
  cases found : operatorOf precedence other with
  | none => rfl
  | some result =>
    obtain ⟨token, rfl, hkind, hop, hprecedence, -⟩ := operatorOf_eq_some_iff.mp found
    obtain ⟨rest, rfl⟩ := List.head?_eq_some_iff.mp h.symm
    rw [operatorOf_eq_some_iff.mpr ⟨token, rfl, hkind, hop, hprecedence, rfl⟩] at none
    cases none

theorem climb_prompt {operand operand' : Step Tree} {continued continued' : Nat → Tree → Step Tree}
    {L : Language Token} (first : Prompt L operand operand')
    (next : ∀ n left, Prompt (continuations n) (continued n left) (continued' n left)) (n : Nat) :
    Prompt (climbs L n) (climb operand continued n) (climb operand' continued' n) := by
  induction n with
  | zero => exact first
  | succ n ih =>
    intro tokens
    exact .bind (ih tokens) viable_kstar fun left rest _ => next n left rest

/-- Operands are prompt, whatever more levels there are. -/
def OperandsPrompt (free : Nat) : Prop :=
  ∀ free', free ≤ free' → Prompt (derived Grammar.Operand) (operand free) (operand free')

/-- Without an operator the chain ends. -/
theorem chain_done {free free' n : Nat} {left : Tree} {tokens : List Token}
    (found : operatorOf (precedenceLevels - n) tokens = none) :
    PromptAt (continuations n) (chain free' n left) tokens (chain free n left tokens) := by
  have ends (m : Nat) {other : List Token} (same : other.head? = tokens.head?) :
      chain m n left other = .ok (left, other) := by
    rw [chain.eq_def, operatorOf_congr same found]
  rw [ends free rfl]
  exact .done (Language.nil_mem_kstar _) fun other same => ends free' same

theorem chain_prompt {free : Nat} (operands : ∀ m, m < free → OperandsPrompt m) {free' : Nat}
    (more : free ≤ free') (n : Nat) (left : Tree) :
    Prompt (continuations n) (chain free n left) (chain free' n left) := by
  induction free generalizing free' n left with
  | zero =>
    intro tokens
    cases found : operatorOf (precedenceLevels - n) tokens with
    | none => exact chain_done found
    | some result =>
      rw [chain, found]
      exact .limit viable_kstar
  | succ free ih =>
    obtain ⟨free', rfl⟩ : ∃ m, free' = m + 1 := ⟨free' - 1, by omega⟩
    intro tokens
    cases found : operatorOf (precedenceLevels - n) tokens with
    | none => exact chain_done found
    | some result =>
      obtain ⟨op, p, rest⟩ := result
      obtain ⟨token, rfl, hkind, hop, hprecedence, rfl⟩ := operatorOf_eq_some_iff.mp found
      have unfolded (m : Nat) (rest : List Token) : chain (m + 1) n left (token :: rest) =
          level m n rest >>= fun read =>
            chain m n (.binary op left read.1 token.location) read.2 := by
        rw [chain, operatorOf_eq_some_iff.mpr ⟨token, rfl, hkind, hop, hprecedence, rfl⟩]
      have fewer : free ≤ free' := Nat.le_of_succ_le_succ more
      have chains := ih (fun m hm => operands m (Nat.lt_succ_of_lt hm)) fewer
      have levels : Prompt (derived (Level n)) (level free n) (level free' n) :=
        (climb_prompt (operands free (Nat.lt_succ_self _) free' fewer) chains n).mono
          (climbs_le n le_rfl)
      refine .after (unfolded free) (unfolded free') ?_
      refine .mono (.bind (levels rest) viable_kstar fun right rest _ => chains n _ rest) ?_
      exact continuations_quotient ⟨token, op, hkind, mem_signs_iff.mpr ⟨hop, hprecedence⟩, rfl⟩

section

variable {token : Token} (free : Nat) (rest : List Token)

theorem operand_number (h : token.kind = .number) :
    operand free (token :: rest) = .ok (.number token.text token.location, rest) := by
  rw [operand.eq_def]
  simp only [h]

theorem operand_identifier (h : token.kind = .identifier) :
    operand free (token :: rest) = .ok (.identifier token.text token.location, rest) := by
  rw [operand.eq_def]
  simp only [h]

theorem operand_limit (h : token.is .delimiter "(" = true) :
    operand 0 (token :: rest) = .error ⟨.fewerLevels, token :: rest, 0⟩ := by
  obtain ⟨hkind, htext⟩ := Token.is_iff.mp h
  rw [operand.eq_def]
  simp only [hkind, htext, if_true]

theorem operand_enclosed (h : token.is .delimiter "(" = true) :
    operand (free + 1) (token :: rest) = (do
      let (inner, rest) ← expression free rest
      let rest ← expect free .delimiter ")" rest
      .ok (inner, rest)) := by
  obtain ⟨hkind, htext⟩ := Token.is_iff.mp h
  rw [operand.eq_def]
  simp only [hkind, htext, if_true]
  rfl

theorem operand_other (number : token.kind ≠ .number) (identifier : token.kind ≠ .identifier)
    (parenthesis : ¬token.is .delimiter "(" = true) :
    operand free (token :: rest) = .error ⟨.operand, token :: rest, free⟩ := by
  rw [operand.eq_def]
  cases hkind : token.kind with
  | number => exact absurd hkind number
  | identifier => exact absurd hkind identifier
  | delimiter =>
    have htext : token.text ≠ "(" := fun htext => parenthesis (Token.is_iff.mpr ⟨hkind, htext⟩)
    simp only [hkind, if_neg htext]
  | _ => simp only [hkind]

end

/-- What follows the parenthesis of an operand. -/
theorem enclosed_words {token : Token} (h : token.is .delimiter "(" = true) :
    derived Expression * single .delimiter ")" ≤
      (derived Grammar.Operand).leftQuotient [token] := by
  rintro _ ⟨used, ⟨t, levels, ht⟩, _, ⟨right, hright, rfl⟩, rfl⟩
  exact mem_leftQuotient (.enclosed h hright ht) rfl

/-- Operands are prompt if expressions with fewer levels are. -/
theorem operand_prompt {free : Nat}
    (inner : ∀ m, m < free → ∀ m', m ≤ m' →
      Prompt (derived Expression) (expression m) (expression m')) : OperandsPrompt free := by
  intro free' more tokens
  cases tokens with
  | nil =>
    rw [operand]
    refine .here viable_operand (forall_head?_nil ⟨free', ?_⟩)
    rw [operand]
  | cons token rest =>
    by_cases number : token.kind = .number
    · refine .after (operand_number free · number) (operand_number free' · number)
        (.mono (prompt_ok _ rest) ?_)
      rintro _ rfl
      exact mem_leftQuotient (.number number) rfl
    by_cases identifier : token.kind = .identifier
    · refine .after (operand_identifier free · identifier) (operand_identifier free' · identifier)
        (.mono (prompt_ok _ rest) ?_)
      rintro _ rfl
      exact mem_leftQuotient (.identifier identifier) rfl
    by_cases parenthesis : token.is .delimiter "(" = true
    · cases free with
      | zero =>
        rw [operand_limit rest parenthesis]
        exact .limit viable_operand
      | succ free =>
        obtain ⟨free', rfl⟩ : ∃ m, free' = m + 1 := ⟨free' - 1, by omega⟩
        have expressions := inner free (Nat.lt_succ_self _) free' (Nat.le_of_succ_le_succ more)
        refine .after (operand_enclosed free · parenthesis)
          (operand_enclosed free' · parenthesis) ?_
        exact .mono (.bind (expressions rest) (viable_single _ _) fun t rest _ => .last t)
          (enclosed_words parenthesis)
    · have other (m : Nat) (rest : List Token) := operand_other m rest number identifier parenthesis
      rw [other]
      exact .here viable_operand (forall_head?_cons fun rest => ⟨free', other free' rest⟩)

theorem expressions_prompt (free : Nat) :
    OperandsPrompt free ∧
      ∀ free', free ≤ free' →
        ∀ n, Prompt (derived (Level n)) (level free n) (level free' n) := by
  induction free using Nat.strongRecOn with
  | ind free ih =>
    have operands : OperandsPrompt free :=
      operand_prompt fun m hm m' more => (ih m hm).2 m' more precedenceLevels
    refine ⟨operands, fun free' more n => ?_⟩
    have chains := chain_prompt (fun m hm => (ih m hm).1) more
    exact (climb_prompt (operands free' more) chains n).mono (climbs_le n le_rfl)

theorem condition_words :
    single .delimiter "(" * (derived Expression * single .delimiter ")") ≤ derived Condition := by
  rintro _ ⟨_, ⟨left, hleft, rfl⟩, _, ⟨used, ⟨t, levels, h⟩, _, ⟨right, hright, rfl⟩, rfl⟩, rfl⟩
  exact mem_derived (.mk hleft hright h) rfl

theorem viable_condition : Viable (derived Condition) [] :=
  ((viable_single _ _).mul ((viable_level _).mul (viable_single _ _))).mono condition_words

section

variable {free free' : Nat} (more : free ≤ free')
include more

theorem expression_prompt : Prompt (derived Expression) (expression free) (expression free') :=
  (expressions_prompt free).2 free' more precedenceLevels

theorem condition_prompt : Prompt (derived Condition) (condition free) (condition free') := by
  intro tokens
  refine .mono (.expect ((viable_level _).mul (viable_single _ _)) fun rest => ?_) condition_words
  exact .bind (expression_prompt more rest) (viable_single _ _) fun t rest _ => .last t

end

/-! ## Names -/

theorem climb_of_ok {operand : Step Tree} {continued : Nat → Tree → Step Tree}
    {tokens rest : List Token} {t : Tree} (h : operand tokens = .ok (t, rest)) (n : Nat) :
    climb operand continued n tokens = climb (fun tokens => .ok (t, tokens)) continued n rest := by
  induction n with
  | zero => exact h
  | succ n ih => rw [climb, climb, ih]

/-- A name and what continues an expression. -/
theorem name_continued {token : Token} (h : token.kind = .identifier) :
    climbs 1 precedenceLevels ≤ (derived Expression).leftQuotient [token] := by
  intro used word
  have operands : single token.kind token.text * 1 ≤ derived Grammar.Operand := by
    rintro _ ⟨_, ⟨other, is, rfl⟩, _, rfl, rfl⟩
    exact mem_derived (.identifier ((Token.is_iff.mp is).1.trans h)) rfl
  have whole : [token] ++ used ∈ single token.kind token.text * climbs 1 precedenceLevels :=
    Language.append_mem_mul ⟨token, Token.is_iff.mpr ⟨rfl, rfl⟩, rfl⟩ word
  rw [mul_climbs] at whole
  exact climbs_le _ operands whole

theorem simple_name {free : Nat} {token : Token} (h : token.kind = .identifier)
    {rest : List Token}
    (noSign : ∀ next after, rest = next :: after → next.kind = .operator →
      next.text ≠ "=" ∧ StepOp.ofSymbol? next.text = none) :
    simple free (token :: rest) =
      climb (fun tokens => .ok (.identifier token.text token.location, tokens)) (chain free)
        precedenceLevels rest := by
  rw [← climb_of_ok (operand_identifier free rest h)]
  cases rest with
  | nil => rfl
  | cons next after =>
    rw [simple]
    split
    · rename_i is
      obtain ⟨notEqual, notStep⟩ := noSign next after rfl is.2
      rw [if_neg notEqual, notStep]
      rfl
    · rfl

theorem simple_assign {free : Nat} {token next : Token} (h : token.kind = .identifier)
    (hkind : next.kind = .operator) (htext : next.text = "=") (rest : List Token) :
    simple free (token :: next :: rest) = (do
      let (value, rest) ← expression free rest
      .ok ({ kind := .assign, location := token.location,
             left := some (.identifier token.text token.location), right := some value },
        rest)) := by
  rw [simple, if_pos ⟨h, hkind⟩, if_pos htext]

theorem simple_step {free : Nat} {token next : Token} {op : StepOp} (h : token.kind = .identifier)
    (hkind : next.kind = .operator) (hop : StepOp.ofSymbol? next.text = some op)
    (rest : List Token) :
    simple free (token :: next :: rest) =
      .ok ({ kind := .step op, location := token.location,
             left := some (.identifier token.text token.location) }, rest) := by
  have notEqual : next.text ≠ "=" := by
    rw [StepOp.symbol_of_ofSymbol? hop]
    cases op <;> decide
  rw [simple, if_pos ⟨h, hkind⟩, if_neg notEqual, hop]

theorem expression_le_simple : derived Expression ≤ derived Simple := by
  rintro used ⟨t, levels, h⟩
  exact ⟨t, levels, .expression h⟩

/-- A name, the sign behind it and an expression. -/
theorem assign_words {token next : Token} (h : token.kind = .identifier)
    (hkind : next.kind = .operator) (htext : next.text = "=") :
    derived Expression ≤ ((derived Simple).leftQuotient [token]).leftQuotient [next] := by
  rintro used ⟨t, levels, derivation⟩
  exact ⟨_, _, .assign h (Token.is_iff.mpr ⟨hkind, htext⟩) derivation⟩

/-- A name and what continues an expression, as a statement. -/
theorem name_words {token : Token} (h : token.kind = .identifier) :
    climbs 1 precedenceLevels ≤ (derived Simple).leftQuotient [token] := by
  intro used word
  exact expression_le_simple (name_continued h word)

theorem viable_simple : Viable (derived Simple) [] :=
  (viable_level precedenceLevels).mono expression_le_simple

section

variable {free free' : Nat} (more : free ≤ free')
include more

/-- A name alone is used in any case, so only the token behind it is looked at. -/
theorem simple_prompt_name {token : Token} (h : token.kind = .identifier) (rest : List Token) :
    PromptAt (derived Simple) (simple free') (token :: rest) (simple free (token :: rest)) := by
  refine .cons ?_
  have chains := chain_prompt (fun m _ => (expressions_prompt m).1) more
  have continued := climb_prompt (prompt_ok (.identifier token.text token.location)) chains
    precedenceLevels
  by_cases noSign : ∀ next after, rest = next :: after → next.kind = .operator →
      next.text ≠ "=" ∧ StepOp.ofSymbol? next.text = none
  · rw [simple_name h noSign]
    refine .congr (fun other same => simple_name h ?_) (.mono (continued rest) (name_words h))
    rintro next after rfl
    obtain ⟨after', rfl⟩ := List.head?_eq_some_iff.mp same.symm
    exact noSign next after' rfl
  · simp only [not_forall, not_and_or, not_not, ← ne_eq, Option.ne_none_iff_exists'] at noSign
    obtain ⟨next, after, rfl, hkind, htext | ⟨op, hop⟩⟩ := noSign
    · rw [simple_assign h hkind htext]
      refine .cons (.congr (fun other _ => simple_assign h hkind htext other) ?_)
      exact .mono (.map (expression_prompt more after) (fun _ _ => rfl) (fun _ _ => rfl))
        (assign_words h hkind htext)
    · have htext := StepOp.symbol_of_ofSymbol? hop
      rw [simple_step h hkind hop]
      refine .cons (.congr (fun other _ => simple_step h hkind hop other) ?_)
      refine .mono (prompt_ok _ after) ?_
      rintro _ rfl
      exact ⟨_, _, .step h (Token.is_iff.mpr ⟨hkind, htext⟩)⟩

theorem simple_prompt : Prompt (derived Simple) (simple free) (simple free') := by
  intro tokens
  cases tokens with
  | nil =>
    have unfolded (m : Nat) : simple m [] = expression m [] := rfl
    rw [unfolded]
    exact .congr (forall_head?_nil (unfolded free'))
      ((expression_prompt more []).mono expression_le_simple)
  | cons token rest =>
    by_cases h : token.kind = .identifier
    · exact simple_prompt_name more h rest
    · have unfolded (m : Nat) (rest : List Token) :
          simple m (token :: rest) = expression m (token :: rest) := by
        cases rest with
        | nil => rfl
        | cons next after => exact if_neg fun is => h is.1
      rw [unfolded]
      exact .congr (forall_head?_cons (unfolded free'))
        ((expression_prompt more (token :: rest)).mono expression_le_simple)

end

end Quadrupler.Syntax
