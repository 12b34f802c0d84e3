import Quadrupler.Proofs.Syntax.Blame
import Quadrupler.Proofs.Syntax.ErrorPlace
set_option autoImplicit false

/-!
# The limit of nesting in errors

Which token an error about the limit of nesting shows.  Parentheses and operators are looked at
before their level is opened, and so is the brace of a block that stands alone as a statement; the
level of a block or of the arms of a switch that a keyword asks for is opened in any case.  So the
token shown opens a level unless a brace is missing, and a missing brace is reported as such unless
so many braces are open as there may be levels.

Every step is compared with the one that has one level more.
-/

namespace Quadrupler

namespace Syntax

open Grammar Token
open scoped Computability

/-! ## Expressions -/

theorem avoids_operand : Avoids (derived Grammar.Operand) [] :=
  ⟨⟨.number, "0", .start⟩, [], by decide, mem_derived (.number rfl) rfl⟩

theorem balanced_level (n : Nat) : Balanced (derived (Level n)) := balanced_derived nested_of_level

section

variable {outer : Nat}

theorem climb_blames {operand operand' : Step Tree} {continued continued' : Nat → Tree → Step Tree}
    {L : Language Token} (balanced : ∀ n, Balanced (climbs L n))
    (prompt : ∀ n, Prompt (climbs L n) (climb operand continued n) (climb operand' continued' n))
    (first : ∀ tokens, Blames L operand' outer 1 tokens (operand tokens))
    (next : ∀ n left tokens,
      Blames (continuations n) (continued' n left) outer 1 tokens (continued n left tokens))
    (n : Nat) (tokens : List Token) :
    Blames (climbs L n) (climb operand' continued' n) outer 1 tokens
      (climb operand continued n tokens) := by
  induction n generalizing tokens with
  | zero => exact first tokens
  | succ n ih =>
    exact .bind (ih tokens) (prompt n tokens).resumes (balanced n) viable_kstar (Nat.le_refl 1)
      fun left rest _ => next n left rest

variable (outer) in
/-- Operands are stuck for a reason. -/
def OperandsBlame (free : Nat) : Prop :=
  ∀ tokens, Blames (derived Grammar.Operand) (operand (free + 1)) outer 1 tokens
    (operand free tokens)

theorem chain_prompt_succ (free n : Nat) (left : Tree) :
    Prompt (continuations n) (chain free n left) (chain (free + 1) n left) :=
  chain_prompt (fun m _ => (expressions_prompt m).1) (Nat.le_succ free) n left

/-- Levels of precedence are stuck for a reason if their operands and chains are. -/
theorem level_blames {free : Nat} (operands : OperandsBlame outer free)
    (chains : ∀ n left tokens, Blames (continuations n) (chain (free + 1) n left) outer 1 tokens
      (chain free n left tokens)) (n : Nat) (tokens : List Token) :
    Blames (derived (Level n)) (level (free + 1) n) outer 1 tokens (level free n tokens) := by
  have prompt := climb_prompt ((expressions_prompt free).1 (free + 1) (Nat.le_succ free))
    (chain_prompt_succ free)
  have balanced (n : Nat) : Balanced (climbs (derived Grammar.Operand) n) := fun word h =>
    balanced_level n word (climbs_le n le_rfl h)
  exact (climb_blames balanced prompt operands chains n tokens).mono (climbs_le n le_rfl)

theorem chain_blames {free : Nat} (operands : ∀ m, m < free → OperandsBlame outer m) (n : Nat)
    (left : Tree) (tokens : List Token) :
    Blames (continuations n) (chain (free + 1) n left) outer 1 tokens
      (chain free n left tokens) := by
  induction free generalizing n left tokens with
  | zero =>
    cases found : operatorOf (precedenceLevels - n) tokens with
    | none =>
      rw [chain, found]
      trivial
    | some result =>
      obtain ⟨op, p, rest⟩ := result
      obtain ⟨token, rfl, hkind, hop, hprecedence, rfl⟩ := operatorOf_eq_some_iff.mp found
      have sign := mem_signs_iff.mpr ⟨hop, hprecedence⟩
      rw [chain, found]
      obtain ⟨more, word⟩ : Viable (derived (Level n) * continuations n) [] :=
        (viable_level n).mul viable_kstar
      exact .limit (by simp [opensLevel, hkind, hop])
        ⟨more, continuations_quotient ⟨token, op, hkind, sign, rfl⟩ word⟩
  | succ free ih =>
    cases found : operatorOf (precedenceLevels - n) tokens with
    | none =>
      rw [chain, found]
      trivial
    | some result =>
      obtain ⟨op, p, rest⟩ := result
      obtain ⟨token, rfl, hkind, hop, hprecedence, rfl⟩ := operatorOf_eq_some_iff.mp found
      have unfolded (m : Nat) (rest : List Token) : chain (m + 1) n left (token :: rest) =
          level m n rest >>= fun read =>
            chain m n (.binary op left read.1 token.location) read.2 := by
        rw [chain, operatorOf_eq_some_iff.mpr ⟨token, rfl, hkind, hop, hprecedence, rfl⟩]
      have chains := ih fun m hm => operands m (Nat.lt_succ_of_lt hm)
      have levels := level_blames (operands free (Nat.lt_succ_self _)) chains n
      have prompt := (expressions_prompt free).2 (free + 1) (Nat.le_succ free) n
      have sign := mem_signs_iff.mpr ⟨hop, hprecedence⟩
      refine .after (shifts_of_kind (by simp [hkind])) (unfolded free) (unfolded (free + 1)) ?_
      refine .mono ?_ (continuations_quotient ⟨token, op, hkind, sign, rfl⟩)
      refine .bind (levels rest).weaken (prompt rest).resumes (balanced_level n) viable_kstar
        (Nat.zero_le 1) fun right rest _ => ?_
      exact chains n (.binary op left right token.location) rest

/-- Operands are stuck for a reason if expressions with fewer levels are. -/
theorem operand_blames {free : Nat}
    (inner : ∀ m, m < free → ∀ tokens,
      Blames (derived Expression) (expression (m + 1)) outer 1 tokens (expression m tokens)) :
    OperandsBlame outer free := by
  intro tokens
  cases tokens with
  | nil =>
    rw [operand]
    exact .here (by simp) (by simp) avoids_operand
  | cons token rest =>
    by_cases number : token.kind = .number
    · rw [operand_number free rest number]
      trivial
    by_cases identifier : token.kind = .identifier
    · rw [operand_identifier free rest identifier]
      trivial
    by_cases parenthesis : token.is .delimiter "(" = true
    · cases free with
      | zero =>
        rw [operand_limit rest parenthesis]
        obtain ⟨more, word⟩ : Viable (derived Expression * single .delimiter ")") [] :=
          (viable_level _).mul (viable_single _ _)
        exact .limit (by simp [opensLevel, parenthesis]) ⟨more, enclosed_words parenthesis word⟩
      | succ free =>
        have expressions := inner free (Nat.lt_succ_self _)
        have prompt := expression_prompt (Nat.le_succ free)
        refine .after (shifts_of_is parenthesis (by decide)) (operand_enclosed free · parenthesis)
          (operand_enclosed (free + 1) · parenthesis) ?_
        refine .mono ?_ (enclosed_words parenthesis)
        refine .bind (expressions rest).weaken (prompt rest).resumes (balanced_level _)
          (viable_single _ _) (Nat.zero_le 1) fun t rest _ => ?_
        exact .last (by decide) t
    · rw [operand_other free rest number identifier parenthesis]
      exact .here (by simp) (by simp) avoids_operand

theorem expressions_blame (free : Nat) :
    OperandsBlame outer free ∧ ∀ n tokens,
      Blames (derived (Level n)) (level (free + 1) n) outer 1 tokens (level free n tokens) := by
  induction free using Nat.strongRecOn with
  | ind free ih =>
    have operands : OperandsBlame outer free :=
      operand_blames fun m hm => (ih m hm).2 precedenceLevels
    exact ⟨operands, level_blames operands (chain_blames fun m hm => (ih m hm).1)⟩

variable (free : Nat) (tokens : List Token)

theorem expression_blames :
    Blames (derived Expression) (expression (free + 1)) outer 1 tokens (expression free tokens) :=
  (expressions_blame free).2 precedenceLevels tokens

/-- An expression is read, and then something else. -/
theorem expression_bind_blames {α : Type} {M : Language Token} (viable : Viable M [])
    {k k' : Tree × List Token → Except Stuck (α × List Token)}
    (next : ∀ e rest, Blames M (fun rest => k' (e, rest)) outer 1 rest (k (e, rest))) :
    Blames (derived Expression * M) (fun tokens => expression (free + 1) tokens >>= k') outer 0
      tokens (expression free tokens >>= k) := by
  have resumes := (expression_prompt (Nat.le_succ free) tokens).resumes
  exact .bind (expression_blames free tokens).weaken resumes (balanced_level _) viable
    (Nat.zero_le 1) fun e rest _ => next e rest

theorem condition_blames :
    Blames (derived Condition) (condition (free + 1)) outer 1 tokens (condition free tokens) := by
  have closing := viable_single .delimiter ")"
  refine .mono ?_ condition_words
  refine .expect (by decide) (by decide) ((viable_level _).mul closing) fun rest => ?_
  refine expression_bind_blames free rest closing fun t rest => ?_
  exact .last (by decide) t

/-! ## Simple statements -/

/-- What continues an expression behind a name closes the braces it opens. -/
theorem balanced_continued (n : Nat) : Balanced (climbs 1 n) := by
  intro word h
  let name : Token := ⟨.identifier, "", .start⟩
  have operands : single name.kind name.text * 1 ≤ derived Grammar.Operand := by
    rintro _ ⟨_, ⟨other, is, rfl⟩, _, rfl, rfl⟩
    exact mem_derived (.identifier (Token.is_iff.mp is).1) rfl
  have whole : [name] ++ word ∈ single name.kind name.text * climbs 1 n :=
    Language.append_mem_mul ⟨name, Token.is_iff.mpr ⟨rfl, rfl⟩, rfl⟩ h
  rw [mul_climbs] at whole
  have same := balanced_level n _ (climbs_le n operands whole)
  have plain : Shifts name 0 0 := shifts_of_kind (by decide)
  rw [bracesOpened_append, bracesClosed_append] at same
  unfold Shifts at plain
  omega

theorem simple_blames_name {token : Token} (h : token.kind = .identifier) (rest : List Token) :
    Blames (derived Simple) (simple (free + 1)) outer 1 (token :: rest)
      (simple free (token :: rest)) := by
  have plain {token : Token} (h : token.kind ≠ .delimiter) : Shifts token outer outer :=
    shifts_of_kind h
  refine .cons (plain (by simp [h])) ?_
  by_cases noSign : ∀ next after, rest = next :: after → next.kind = .operator →
      next.text ≠ "=" ∧ StepOp.ofSymbol? next.text = none
  · have prompt := climb_prompt (prompt_ok (Tree.identifier token.text token.location))
      (chain_prompt_succ free)
    have chains (n : Nat) (left : Tree) (tokens : List Token) : Blames (continuations n)
        (chain (free + 1) n left) outer 1 tokens (chain free n left tokens) :=
      chain_blames (fun m _ => (expressions_blame m).1) n left tokens
    have continued := climb_blames balanced_continued prompt (fun _ => trivial) chains
      precedenceLevels rest
    rw [simple_name h noSign]
    refine .weaken (.congr (fun other same => simple_name h ?_) (continued.mono (name_words h)))
    rintro next after rfl
    obtain ⟨after', rfl⟩ := List.head?_eq_some_iff.mp same.symm
    exact noSign next after' rfl
  · simp only [not_forall, not_and_or, not_not, ← ne_eq, Option.ne_none_iff_exists'] at noSign
    obtain ⟨next, after, rfl, hkind, htext | ⟨op, hop⟩⟩ := noSign
    · rw [simple_assign h hkind htext]
      refine .weaken (.cons (plain (by simp [hkind])) ?_)
      simp only [simple_assign h hkind htext]
      refine .mono ?_ (assign_words h hkind htext)
      exact .map (expression_blames free after).weaken fun _ _ => ⟨_, rfl⟩
    · rw [simple_step h hkind hop]
      trivial

theorem simple_blames :
    Blames (derived Simple) (simple (free + 1)) outer 1 tokens (simple free tokens) := by
  cases tokens with
  | nil =>
    have unfolded (m : Nat) : simple m [] = expression m [] := rfl
    rw [unfolded]
    exact .congr (forall_head?_nil (unfolded (free + 1)))
      ((expression_blames free []).mono expression_le_simple)
  | cons token rest =>
    by_cases h : token.kind = .identifier
    · exact simple_blames_name free h rest
    · have unfolded (m : Nat) (rest : List Token) :
          simple m (token :: rest) = expression m (token :: rest) := by
        cases rest with
        | nil => rfl
        | cons next after => exact if_neg fun is => h is.1
      rw [unfolded]
      exact .congr (forall_head?_cons (unfolded (free + 1)))
        ((expression_blames free (token :: rest)).mono expression_le_simple)

end

/-! ## Statements -/

theorem avoids_statement : Avoids (derived Statement) [] :=
  ⟨⟨.delimiter, ";", .start⟩, [], by decide, mem_derived (.empty (by decide)) rfl⟩

theorem balanced_condition : Balanced (derived Condition) := balanced_derived nested_of_condition

theorem balanced_simple : Balanced (derived Simple) := balanced_derived nested_of_simple

theorem balanced_block : Balanced (derived Block) := balanced_derived nested_of_block

theorem balanced_statement : Balanced (derived Statement) := balanced_derived nested_of_statement

theorem condition_resumes (free : Nat) (tokens : List Token) :
    Resumes (derived Condition) (condition (free + 1)) 0 tokens (condition free tokens) :=
  resumes_of_complete (condition_sound free) (condition_complete (free + 1)) (Nat.le_succ free)
    tokens

/-- A condition is read, and then something else, whatever it begins with. -/
theorem condition_bind_blames {α : Type} {M : Language Token} {outer : Nat} (free : Nat)
    (tokens : List Token) (viable : Viable M [])
    {k k' : Tree × List Token → Except Stuck (α × List Token)}
    (next : ∀ e rest, Blames M (fun rest => k' (e, rest)) outer 0 rest (k (e, rest))) :
    Blames (derived Condition * M) (fun tokens => condition (free + 1) tokens >>= k') outer 0
      tokens (condition free tokens >>= k) :=
  .bind (condition_blames free tokens).weaken (condition_resumes free tokens) balanced_condition
    viable (Nat.le_refl 0) fun e rest _ => next e rest

section

variable {free : Nat} {block block' : Step Tree} (blocks : Prompt (derived Block) block block')
  (blame : ∀ tokens, Blames (derived Block) block' free 0 tokens (block tokens))
  {arms arms' : Step (List Tree)}
  (blame' : ∀ tokens, Blames (derived EnclosedArms) arms' free 0 tokens (arms tokens))
  {word : Token}

include blame in
theorem alternativeOf_blames (tree : List Tree → Tree) (tokens : List Token) :
    Blames (1 + single .keyword "else" * derived Block) (alternativeOf block' tree) free 1 tokens
      (alternativeOf block tree tokens) := by
  cases tokens with
  | nil => trivial
  | cons other after =>
    by_cases is : other.is .keyword "else" = true
    · refine .after (shifts_of_is is (by decide)) (fun rest => if_pos is) (fun rest => if_pos is) ?_
      refine .mono (.map (blame after) fun _ _ => ⟨_, rfl⟩) ?_
      intro used word
      exact .inr (Language.append_mem_mul ⟨other, is, rfl⟩ word)
    · have ends : alternativeOf block tree (other :: after) = .ok (tree [], other :: after) :=
        if_neg is
      rw [ends]
      trivial

include blocks blame in
theorem ifThen_blames (h : word.is .keyword "if" = true) (rest : List Token) :
    Blames (derived Statement) (statementWith (free + 1) block' arms') free 1 (word :: rest)
      (statementWith free block arms (word :: rest)) := by
  refine .after (shifts_of_is h (by decide)) (statementWith_ifThen h) (statementWith_ifThen h) ?_
  refine .mono ?_ (ifThen_words h)
  have last : Viable (1 + single .keyword "else" * derived Block) [] := viable_of_mem (.inl rfl)
  refine condition_bind_blames free rest (viable_block.mul last) fun test rest => ?_
  refine .bind (blame rest) (blocks rest).resumes balanced_block last (Nat.zero_le 1) ?_
  intro body rest _
  exact alternativeOf_blames blame _ rest

include blame in
theorem whileLoop_blames (h : word.is .keyword "while" = true) (rest : List Token) :
    Blames (derived Statement) (statementWith (free + 1) block' arms') free 1 (word :: rest)
      (statementWith free block arms (word :: rest)) := by
  refine .after (shifts_of_is h (by decide)) (statementWith_whileLoop h)
    (statementWith_whileLoop h) ?_
  refine .mono ?_ (whileLoop_words h)
  refine condition_bind_blames free rest viable_block fun test rest => ?_
  exact .map (blame rest) fun _ _ => ⟨_, rfl⟩

include blame in
theorem forLoop_blames (h : word.is .keyword "for" = true) (rest : List Token) :
    Blames (derived Statement) (statementWith (free + 1) block' arms') free 1 (word :: rest)
      (statementWith free block arms (word :: rest)) := by
  refine .after (shifts_of_is h (by decide)) (statementWith_forLoop h) (statementWith_forLoop h) ?_
  refine .mono ?_ (forLoop_words h)
  have simples (rest : List Token) :
      Blames (derived Simple) (simple (free + 1)) free 0 rest (simple free rest) :=
    (simple_blames free rest).weaken
  have prompt := simple_prompt (Nat.le_succ free)
  have semicolon := viable_single .delimiter ";"
  have body := (viable_single .delimiter ")").mul viable_block
  have advance := viable_simple.mul body
  have test := (viable_level precedenceLevels).mul (semicolon.mul advance)
  have first := viable_simple.mul (semicolon.mul test)
  refine .weaken (.expect (by decide) (by decide) first fun rest => ?_)
  refine .bind (simples rest) (prompt rest).resumes balanced_simple (semicolon.mul test)
    (Nat.zero_le 1) fun i rest _ => ?_
  refine .expect (by decide) (by decide) test fun rest => ?_
  refine expression_bind_blames free rest (semicolon.mul advance) fun e rest => ?_
  refine .expect (by decide) (by decide) advance fun rest => ?_
  refine .bind (simples rest) (prompt rest).resumes balanced_simple body (Nat.zero_le 1) ?_
  intro a rest _
  refine .expect (by decide) (by decide) viable_block fun rest => ?_
  exact .map (blame rest) fun _ _ => ⟨_, rfl⟩

include blocks blame in
theorem doLoop_blames (h : word.is .keyword "do" = true) (rest : List Token) :
    Blames (derived Statement) (statementWith (free + 1) block' arms') free 1 (word :: rest)
      (statementWith free block arms (word :: rest)) := by
  refine .after (shifts_of_is h (by decide)) (statementWith_doLoop h) (statementWith_doLoop h) ?_
  refine .mono ?_ (doLoop_words h)
  have semicolon := viable_single .delimiter ";"
  have test := viable_condition.mul semicolon
  have again := (viable_single .keyword "while").mul test
  refine .bind (blame rest) (blocks rest).resumes balanced_block again (Nat.zero_le 1) ?_
  intro b rest _
  refine .expect (by decide) (by decide) test fun rest => ?_
  refine condition_bind_blames free rest semicolon fun e rest => ?_
  exact .weaken (.last (by decide) _)

include blame' in
theorem switch_blames (h : word.is .keyword "switch" = true) (rest : List Token) :
    Blames (derived Statement) (statementWith (free + 1) block' arms') free 1 (word :: rest)
      (statementWith free block arms (word :: rest)) := by
  refine .after (shifts_of_is h (by decide)) (statementWith_switch h) (statementWith_switch h) ?_
  refine .mono ?_ (switch_words h)
  refine condition_bind_blames free rest viable_enclosedArms fun e rest => ?_
  exact .map (blame' rest) fun _ _ => ⟨_, rfl⟩

theorem returning_blames (h : word.is .keyword "return" = true) (rest : List Token) :
    Blames (derived Statement) (statementWith (free + 1) block' arms') free 1 (word :: rest)
      (statementWith free block arms (word :: rest)) := by
  refine .after (shifts_of_is h (by decide)) (statementWith_returning h)
    (statementWith_returning h) ?_
  refine .mono ?_ (returning_words h)
  refine expression_bind_blames free rest (viable_single .delimiter ";") fun t rest => ?_
  exact .last (by decide) _

include blocks blame blame' in
theorem keyword_blames (h : word.kind = .keyword) (rest : List Token) :
    Blames (derived Statement) (statementWith (free + 1) block' arms') free 1 (word :: rest)
      (statementWith free block arms (word :: rest)) := by
  by_cases known : word.text ∈ ["return", "if", "while", "for", "do", "switch"]
  · simp only [List.mem_cons, List.not_mem_nil, or_false] at known
    obtain is | is | is | is | is | is := known
    · exact returning_blames (Token.is_iff.mpr ⟨h, is⟩) rest
    · exact ifThen_blames blocks blame (Token.is_iff.mpr ⟨h, is⟩) rest
    · exact whileLoop_blames blame (Token.is_iff.mpr ⟨h, is⟩) rest
    · exact forLoop_blames blame (Token.is_iff.mpr ⟨h, is⟩) rest
    · exact doLoop_blames blocks blame (Token.is_iff.mpr ⟨h, is⟩) rest
    · exact switch_blames blame' (Token.is_iff.mpr ⟨h, is⟩) rest
  · rw [statementWith_keyword h known]
    exact .here (by simp) (by simp) avoids_statement

theorem simpleStatement_blames (tokens : List Token) :
    Blames (derived Statement) (simpleStatement (free + 1)) free 1 tokens
      (simpleStatement free tokens) := by
  have resumes := (simple_prompt (Nat.le_succ free) tokens).resumes
  refine .mono ?_ simple_words
  refine .bind (simple_blames free tokens) resumes balanced_simple (viable_single .delimiter ";")
    (Nat.le_refl 1) fun t rest _ => ?_
  exact .last (by decide) t

include blocks blame blame' in
theorem statementWith_blames (tokens : List Token) :
    Blames (derived Statement) (statementWith (free + 1) block' arms') free 1 tokens
      (statementWith free block arms tokens) := by
  cases tokens with
  | nil => exact .here (by simp) (by simp) avoids_statement
  | cons word rest =>
    by_cases keyword : word.kind = .keyword
    · exact keyword_blames blocks blame blame' keyword rest
    by_cases semicolon : word.is .delimiter ";" = true
    · rw [statementWith_empty semicolon]
      trivial
    by_cases brace : word.is .delimiter openBrace = true
    · rw [statementWith_block brace]
      exact .congr (forall_head?_cons (statementWith_block brace))
        (.mono (.present (blame (word :: rest)) brace) block_le_statement)
    · rw [statementWith_simple keyword semicolon brace]
      exact .congr (forall_head?_cons (statementWith_simple keyword semicolon brace))
        (simpleStatement_blames (word :: rest))

end

/-! ## Arms and blocks -/

theorem avoids_arm : Avoids (derived Arm) [] :=
  ⟨⟨.keyword, "default", .start⟩, [⟨.delimiter, ":", .start⟩], by decide,
    mem_derived (.defaultArm (by decide) (by decide) .nil) rfl⟩

theorem balanced_statements : Balanced (derived Statements) :=
  balanced_derived nested_of_statements

theorem balanced_arms : Balanced (derived Arms) := balanced_derived nested_of_arms

theorem balanced_arm : Balanced (derived Arm) := by
  rintro word ⟨t, levels, h⟩
  have row : Row Arm (word ++ []) [t] (max levels 0) := .cons h .nil
  rw [List.append_nil] at row
  exact balanced_arms word ⟨_, _, arms_iff_row.mpr row⟩

theorem statement_prompt_succ (free : Nat) :
    Prompt (derived Statement) (statement free) (statement (free + 1)) :=
  statementWith_prompt (Nat.le_succ free) (braces_prompt (Nat.le_succ free)).1
    (braces_prompt (Nat.le_succ free)).2

theorem arm_prompt_succ (free : Nat) :
    Prompt (derived Arm) (arm free (statement free)) (arm (free + 1) (statement (free + 1))) :=
  arm_prompt (Nat.le_succ free) (consumes_statement free) (consumes_statement (free + 1))
    (statement_prompt_succ free)

/-- A block without its brace, if there is a level for it. -/
theorem block_absent (free : Nat) {tokens : List Token}
    (h : begins .delimiter openBrace tokens = false) :
    block (free + 1) tokens = .error ⟨.exactly openBrace, tokens, free⟩ := by
  cases tokens with
  | nil => rfl
  | cons token rest => exact if_neg (Bool.eq_false_iff.mp h)

theorem arms_absent (free : Nat) {tokens : List Token}
    (h : begins .delimiter openBrace tokens = false) :
    arms (free + 1) tokens = .error ⟨.exactly openBrace, tokens, free⟩ := by
  rw [arms, expect, h]
  rfl

theorem block_cons (free : Nat) {brace : Token} (h : brace.is .delimiter openBrace = true)
    (rest : List Token) :
    block (free + 1) (brace :: rest) = (do
      let (statements, rest) ← readUntil closes (statement free) rest
      let rest ← expect free .delimiter closeBrace rest
      .ok (.block statements brace.location, rest)) :=
  if_pos h

theorem arms_cons (free : Nat) {brace : Token} (h : brace.is .delimiter openBrace = true)
    (rest : List Token) :
    arms (free + 1) (brace :: rest) = (do
      let (statements, rest) ← readUntil closes (arm free (statement free)) rest
      let rest ← expect free .delimiter closeBrace rest
      .ok (statements, rest)) := by
  rw [arms, expect_cons h]
  rfl

section

variable {α : Type} {L : Language Token} {step step' : Step α} {free left left' : Nat}
  (asks : ∀ {tokens : List Token}, begins .delimiter openBrace tokens = false →
    step' tokens = .error ⟨.exactly openBrace, tokens, left'⟩)
include asks

/-- A brace is asked for and used, if there is a level for it. -/
theorem blames_brace {next next' : Token → Step α}
    (absent : ∀ {tokens : List Token}, begins .delimiter openBrace tokens = false →
      step tokens = .error ⟨.exactly openBrace, tokens, left⟩)
    (present : ∀ {brace : Token}, brace.is .delimiter openBrace = true → ∀ rest,
      step (brace :: rest) = next brace rest)
    (present' : ∀ {brace : Token}, brace.is .delimiter openBrace = true → ∀ rest,
      step' (brace :: rest) = next' brace rest)
    (behind : ∀ {brace : Token}, brace.is .delimiter openBrace = true → ∀ rest,
      Blames (L.leftQuotient [brace]) (next' brace) free 0 rest (next brace rest))
    (tokens : List Token) : Blames L step' (free + 1) 0 tokens (step tokens) := by
  cases is : begins .delimiter openBrace tokens with
  | false =>
    rw [absent is]
    exact .absent is (fun other missing => ⟨_, asks missing⟩) (.inr ⟨rfl, Nat.succ_pos free⟩)
  | true =>
    cases tokens with
    | nil => cases is
    | cons brace rest =>
      exact .weaken (.after (shifts_brace is) (present is) (present' is) (behind is rest))

/-- Without a level left, a step that asks for a brace opens one too much. -/
theorem blames_zero
    (viable : ∀ {brace : Token}, brace.is .delimiter openBrace = true → Viable L [brace])
    (tokens : List Token) : Blames L step' 0 0 tokens (.error ⟨.fewerLevels, tokens, 0⟩) := by
  cases is : begins .delimiter openBrace tokens with
  | false => exact .absent is (fun other missing => ⟨_, asks missing⟩) (.inl ⟨rfl, rfl⟩)
  | true =>
    cases tokens with
    | nil => cases is
    | cons brace rest =>
      have opens : brace.is .delimiter openBrace = true := is
      exact .limit (by simp [opensLevel, opens]) (viable opens)

end

section

variable {free : Nat} (statements : ∀ tokens,
  Blames (derived Statement) (statement (free + 1)) free 1 tokens (statement free tokens))
include statements

/-- Rows of statements are stuck for a reason, whatever ends them. -/
theorem row_blames {stop : List Token → Bool} (looks : LooksAhead stop) (tokens : List Token) :
    Blames (derived Statements) (readUntil stop (statement (free + 1))) free 1 tokens
      (readUntil stop (statement free) tokens) :=
  (blames_readUntil looks (consumes_statement free) (consumes_statement (free + 1))
    (statement_prompt_succ free) balanced_statement statements tokens).mono kstar_statement

theorem arm_blames (tokens : List Token) :
    Blames (derived Arm) (arm (free + 1) (statement (free + 1))) free 1 tokens
      (arm free (statement free) tokens) := by
  have bodies (rest : List Token) : Blames (derived Statements)
      (readUntil closesArm (statement (free + 1))) free 0 rest
      (readUntil closesArm (statement free) rest) :=
    (row_blames statements looksAhead_closesArm rest).weaken
  cases tokens with
  | nil => exact .here (by simp) (by simp) avoids_arm
  | cons word rest =>
    by_cases isCase : word.is .keyword "case" = true
    · refine .after (shifts_of_is isCase (by decide)) (arm_case isCase) (arm_case isCase) ?_
      refine .mono ?_ (caseArm_words isCase)
      have colon := (viable_single .delimiter ":").mul viable_statements
      refine expression_bind_blames free rest colon fun e rest => ?_
      refine .expect (by decide) (by decide) viable_statements fun rest => ?_
      exact .map (bodies rest) fun _ _ => ⟨_, rfl⟩
    by_cases isDefault : word.is .keyword "default" = true
    · refine .after (shifts_of_is isDefault (by decide)) (arm_default isCase isDefault)
        (arm_default isCase isDefault) ?_
      refine .mono ?_ (defaultArm_words isDefault)
      refine .weaken (.expect (by decide) (by decide) viable_statements fun rest => ?_)
      exact .map (bodies rest) fun _ _ => ⟨_, rfl⟩
    · rw [arm_other isCase isDefault]
      exact .here (by simp) (by simp) avoids_arm

theorem block_blames (tokens : List Token) :
    Blames (derived Block) (block (free + 1 + 1)) (free + 1) 0 tokens
      (block (free + 1) tokens) := by
  refine blames_brace (block_absent (free + 1)) (block_absent free) (block_cons free)
    (block_cons (free + 1)) (fun is rest => ?_) tokens
  have row := row_blames statements looksAhead_closes rest
  have prompt := (prompt_readUntil looksAhead_closes (consumes_statement free)
    (consumes_statement (free + 1)) (statement_prompt_succ free)).mono kstar_statement
  have closing := viable_single .delimiter closeBrace
  refine .mono ?_ (block_words is)
  refine .bind row.weaken (prompt rest).resumes balanced_statements closing (Nat.zero_le 1) ?_
  intro ts rest _
  exact .last (by decide) _

theorem arms_blames (tokens : List Token) :
    Blames (derived EnclosedArms) (arms (free + 1 + 1)) (free + 1) 0 tokens
      (arms (free + 1) tokens) := by
  refine blames_brace (arms_absent (free + 1)) (arms_absent free) (arms_cons free)
    (arms_cons (free + 1)) (fun is rest => ?_) tokens
  have row := (blames_readUntil looksAhead_closes (consumes_arm free) (consumes_arm (free + 1))
    (arm_prompt_succ free) balanced_arm (arm_blames statements) rest).mono kstar_arm
  have prompt := (prompt_readUntil looksAhead_closes (consumes_arm free)
    (consumes_arm (free + 1)) (arm_prompt_succ free)).mono kstar_arm
  have closing := viable_single .delimiter closeBrace
  refine .mono ?_ (arms_words is)
  refine .bind row.weaken (prompt rest).resumes balanced_arms closing (Nat.zero_le 1) ?_
  intro ts rest _
  exact .last (by decide) _

end

theorem braces_blame (free : Nat) :
    (∀ tokens, Blames (derived Block) (block (free + 1)) free 0 tokens (block free tokens)) ∧
      ∀ tokens,
        Blames (derived EnclosedArms) (arms (free + 1)) free 0 tokens (arms free tokens) := by
  induction free with
  | zero =>
    have last := viable_single .delimiter closeBrace
    constructor
    · refine blames_zero (block_absent 0) fun is => ?_
      obtain ⟨more, word⟩ := viable_statements.mul last
      exact ⟨more, block_words is word⟩
    · refine blames_zero (arms_absent 0) fun is => ?_
      obtain ⟨more, word⟩ := (viable_kstar.mono kstar_arm).mul last
      exact ⟨more, arms_words is word⟩
  | succ free ih =>
    have statements : ∀ tokens,
        Blames (derived Statement) (statement (free + 1)) free 1 tokens (statement free tokens) :=
      statementWith_blames (braces_prompt (Nat.le_succ free)).1 ih.1 ih.2
    exact ⟨block_blames statements, arms_blames statements⟩

/-! ## Programs -/

theorem program_blames (here : Location) (free : Nat) (tokens : List Token) :
    Blames (derived Program) (program here (free + 1)) free 1 tokens
      (program here free tokens) := by
  have braces := braces_blame free
  have statements : ∀ tokens,
      Blames (derived Statement) (statement (free + 1)) free 1 tokens (statement free tokens) :=
    statementWith_blames (braces_prompt (Nat.le_succ free)).1 braces.1 braces.2
  have looks : LooksAhead fun _ => false := fun _ _ _ => rfl
  exact .map ((row_blames statements looks tokens).mono statements_le_program) fun _ _ => ⟨_, rfl⟩

/-- A brace is missing between the tokens: every program that begins with the first of them goes on
with a brace, and there are such programs, but the others begin with none. -/
def MissesBrace (used rest : List Token) : Prop :=
  (∃ more t levels, Program (used ++ more) t levels) ∧
    (∀ more t levels, Program (used ++ more) t levels → begins .delimiter openBrace more = true) ∧
    begins .delimiter openBrace rest = false

variable {used rest : List Token}

theorem not_missesBrace_of_avoids (h : Avoids (derived Program) used) : ¬MissesBrace used rest := by
  rintro ⟨-, awaited, -⟩
  obtain ⟨token, more, other, t, levels, derivation⟩ := h
  cases (awaited _ t levels derivation).symm.trans other

theorem not_missesBrace_of_viable {token : Token} (next : rest.head? = some token)
    (h : Viable (derived Program) (used ++ [token])) : ¬MissesBrace used rest := by
  rintro ⟨-, awaited, absent⟩
  obtain ⟨more, t, levels, derivation⟩ := h
  rw [List.append_assoc] at derivation
  obtain ⟨rest, rfl⟩ := List.head?_eq_some_iff.mp next
  cases (awaited _ t levels derivation).symm.trans absent

/-- With a level more a missing brace is asked for, so there is no other way to go on. -/
theorem missesBrace_of_asks {here : Location} {free : Nat} (begun : Viable (derived Program) used)
    (absent : begins .delimiter openBrace rest = false)
    (asks : ∀ other : List Token, begins .delimiter openBrace other = false →
      ∃ left, program here free (used ++ other) = .error ⟨.exactly openBrace, other, left⟩) :
    MissesBrace used rest := by
  refine ⟨begun, fun more t levels derivation => ?_, absent⟩
  by_contra other
  obtain ⟨left, failed⟩ := asks more (Bool.eq_false_iff.mpr other)
  obtain ⟨used', split, -, none⟩ := earliest_of_stuck failed
  obtain rfl : used = used' := List.append_cancel_right split
  exact none (by simp) more rfl ⟨t, levels, derivation⟩

/-- What the reason of a stuck program says about its error. -/
theorem limit_of_blame {here : Location} {free : Nat} {stuck : Stuck}
    (begun : Viable (derived Program) used)
    (blame : Blame (derived Program) (program here (free + 1)) free 1 used stuck) :
    (stuck.expected = .fewerLevels →
      ((∃ token, stuck.rest.head? = some token ∧ token.opensLevel = true ∧
        Viable (derived Program) (used ++ [token])) ↔ ¬MissesBrace used stuck.rest)) ∧
      (MissesBrace used stuck.rest →
        (stuck.expected = .fewerLevels ↔ bracesOpened used = bracesClosed used + free) ∧
        (stuck.expected = .exactly openBrace ↔ bracesOpened used < bracesClosed used + free)) := by
  cases blame with
  | other limit brace avoids =>
    have present : ¬MissesBrace used stuck.rest := not_missesBrace_of_avoids avoids
    exact ⟨fun limit' => absurd limit' limit, fun missing => absurd missing present⟩
  | @opening token limit next opens begun' =>
    have present := not_missesBrace_of_viable next begun'
    exact ⟨fun _ => iff_of_true ⟨token, next, opens, begun'⟩ present,
      fun missing => absurd missing present⟩
  | missing _ absent asks levels =>
    have missing := missesBrace_of_asks begun absent asks
    refine ⟨fun _ => iff_of_false ?_ (not_not_intro missing), fun _ => ?_⟩
    · rintro ⟨token, next, -, begun'⟩
      exact not_missesBrace_of_viable next begun' missing
    · obtain ⟨expected, levels⟩ | ⟨expected, levels⟩ := levels
      · simp [expected, levels]
      · simp [expected, levels, Nat.ne_of_lt levels]

end Syntax

open Syntax

/-- The token at which an error about the limit of nesting stands opens a level that a program may
have there, exactly if no brace is missing.  A missing brace is reported as such, exactly if fewer
braces are open than there may be levels; otherwise the limit is reported in its place. -/
theorem parseTokens_error_limit (tokens : List Token) (e : SyntaxError)
    (h : parseTokens tokens = .error e) :
    let read := tokens.filter fun token => token.kind ≠ .comment
    let position := (Cursor.ofTokens tokens).program.2.position
    let before := read.take position
    let missing := MissesBrace before (read.drop position)
    (e.expected = .fewerLevels →
      ((∃ token, read[position]? = some token ∧ token.opensLevel = true ∧
        ∃ more t levels, Grammar.Program (before ++ [token] ++ more) t levels) ↔ ¬missing)) ∧
      (missing →
        (e.expected = .fewerLevels ↔
          Token.bracesOpened before = Token.bracesClosed before + nestingLimit) ∧
        (e.expected = .exactly openBrace ↔
          Token.bracesOpened before < Token.bracesClosed before + nestingLimit)) := by
  intro read position before missing
  obtain ⟨stuck, used, failed, split, viable, here, rfl⟩ := exists_used_of_parseTokens h
  have blames := program_blames (Cursor.ofTokens tokens).location nestingLimit
    (Token.significant tokens)
  rw [failed] at blames
  obtain ⟨used', split', blame⟩ := blames
  obtain rfl : used = used' := List.append_cancel_right (split.symm.trans split')
  change read = used ++ stuck.rest at split
  change position = used.length at here
  have taken : before = used := by
    change read.take position = used
    rw [here, split, List.take_left]
  have ahead : read.drop position = stuck.rest := by rw [here, split, List.drop_left]
  have next : read[position]? = stuck.rest.head? := by rw [← ahead, List.head?_drop]
  simp only [missing, taken, ahead, next]
  exact limit_of_blame viable blame

/-- In 256 blocks the brace behind a condition is missing, but the limit is reported.  The last of
257 braces opens a level too much, and programs with more levels may have it there. -/
theorem parseTokens_error_limit_braces :
    let brace : Token := ⟨.delimiter, openBrace, .start⟩
    let tokens : List Token := List.replicate 256 brace ++
      [⟨.keyword, "if", .start⟩, ⟨.delimiter, "(", .start⟩, ⟨.identifier, "a", .start⟩,
       ⟨.delimiter, ")", .start⟩, ⟨.identifier, "b", .start⟩, ⟨.delimiter, ";", .start⟩]
    let deep : List Token := List.replicate 257 brace
    (parseTokens tokens = .error ⟨.fewerLevels, some ⟨.identifier, "b", .start⟩, .start⟩ ∧
        MissesBrace (tokens.take 260) (tokens.drop 260) ∧
        Token.bracesOpened (tokens.take 260) =
          Token.bracesClosed (tokens.take 260) + nestingLimit) ∧
      parseTokens deep = .error ⟨.fewerLevels, some brace, .start⟩ ∧
        ∃ token, deep[256]? = some token ∧ token.opensLevel = true ∧
          ∃ more t levels, Grammar.Program (deep.take 256 ++ [token] ++ more) t levels := by
  intro brace tokens deep
  have run : (Cursor.ofTokens tokens).program =
      (.error ⟨.fewerLevels, some ⟨.identifier, "b", .start⟩, .start⟩, ⟨tokens, 260, 256⟩) :=
    (Cursor.inBounds_ofTokens tokens).program_eq_read.trans (by decide +kernel)
  have run' : (Cursor.ofTokens deep).program =
      (.error ⟨.fewerLevels, some brace, .start⟩, ⟨deep, 256, 256⟩) :=
    (Cursor.inBounds_ofTokens deep).program_eq_read.trans (by decide +kernel)
  have failed : parseTokens tokens =
      .error ⟨.fewerLevels, some ⟨.identifier, "b", .start⟩, .start⟩ := by rw [parseTokens, run]
  have failed' : parseTokens deep = .error ⟨.fewerLevels, some brace, .start⟩ := by
    rw [parseTokens, run']
  have read : (tokens.filter fun token => token.kind ≠ .comment) = tokens := by decide +kernel
  have read' : (deep.filter fun token => token.kind ≠ .comment) = deep := by decide +kernel
  have position : (Cursor.ofTokens tokens).program.2.position = 260 := by rw [run]
  have position' : (Cursor.ofTokens deep).program.2.position = 256 := by rw [run']
  obtain ⟨shown, reported⟩ := parseTokens_error_limit tokens _ failed
  obtain ⟨shown', -⟩ := parseTokens_error_limit deep _ failed'
  rw [read, position] at shown reported
  rw [read', position'] at shown'
  have missing : MissesBrace (tokens.take 260) (tokens.drop 260) := by
    by_contra present
    obtain ⟨token, next, opens, -⟩ := (shown rfl).mpr present
    obtain rfl : ⟨.identifier, "b", .start⟩ = token := Option.some.inj next
    cases opens
  have present : ¬MissesBrace (deep.take 256) (deep.drop 256) := by
    rintro ⟨-, -, absent⟩
    cases absent
  exact ⟨⟨failed, missing, (reported missing).1.mp rfl⟩, failed', (shown' rfl).mpr present⟩

/-- The error about the limit shows a name where a brace is missing in 256 blocks; in 255 blocks
the brace is asked for. -/
theorem parseTokens_limit_without_brace :
    let brace : Token := ⟨.delimiter, openBrace, .start⟩
    let test : List Token :=
      [⟨.keyword, "if", .start⟩, ⟨.delimiter, "(", .start⟩, ⟨.identifier, "a", .start⟩,
       ⟨.delimiter, ")", .start⟩, ⟨.identifier, "b", .start⟩, ⟨.delimiter, ";", .start⟩]
    ∃ e e' : SyntaxError,
      (parseTokens (List.replicate 256 brace ++ test) = .error e ∧
        e.expected.describe = "nesting depth of at most 256" ∧
        e.found = some ⟨.identifier, "b", .start⟩ ∧
        Token.opensLevel ⟨.identifier, "b", .start⟩ = false) ∧
      parseTokens (List.replicate 255 brace ++ test) = .error e' ∧
        e'.expected.describe = "'\x7b'" ∧ e'.found = e.found := by
  refine ⟨⟨.fewerLevels, some ⟨.identifier, "b", .start⟩, .start⟩,
    ⟨.exactly openBrace, some ⟨.identifier, "b", .start⟩, .start⟩, ?_⟩
  simp only [parseTokens_eq_settle]
  decide +kernel

end Quadrupler
