import Quadrupler.Proofs.Syntax.Reading
import Quadrupler.Syntax.Parse
set_option autoImplicit false

/-!
# What the parser reads

Every reading of the parser follows the step of the same name, by one rule of `Follows` for each of
its moves.  So a reading that succeeds has closed as many levels as it has opened, wherever it has
opened them, and the bound on the readings inside of each other does not matter
(`Cursor.InBounds.expression_eq`, `Cursor.InBounds.statement_eq`).
-/

namespace Quadrupler

open Syntax

namespace Reading

variable {α : Type}

/-! ## Expressions -/

section Expressions

variable {owed free : Nat} {tokens : List Token}

/-- The operator that the tokens begin with, and its place. -/
def operatorAhead : List Token → Option (BinaryOp × Location)
  | [] => none
  | token :: _ =>
    if token.kind = .operator then
      (BinaryOp.ofSymbol? token.text).map fun op => (op, token.location)
    else
      none

theorem operatorOf_eq (precedence : Nat) (tokens : List Token) :
    operatorOf precedence tokens = (operatorAhead tokens).bind fun found =>
      if found.1.precedence = precedence then some (found.1, found.2, tokens.tail) else none := by
  cases tokens with
  | nil => rfl
  | cons token rest =>
    rw [operatorOf, operatorAhead]
    split
    · cases BinaryOp.ofSymbol? token.text with
      | none => rfl
      | some op => rfl
    · rfl

theorem Follows.peekOperator {result : Except Stuck (α × List Token)}
    {next : Option (BinaryOp × Location) → Reading α}
    (h : Follows owed (next (operatorAhead tokens)) free tokens result) :
    Follows owed (Reading.peekOperator >>= next) free tokens result := by
  rw [Reading.peekOperator, bind_assoc]
  refine .peek ?_
  cases tokens with
  | nil => rwa [List.head?_nil, pure_bind]
  | cons token rest =>
    rw [operatorAhead] at h
    dsimp only [List.head?_cons]
    split
    · rename_i operator
      rw [if_pos operator] at h
      rwa [pure_bind]
    · rename_i other
      rw [if_neg other] at h
      rwa [pure_bind]

theorem level_steady (free n : Nat) : Steady free (level free n) :=
  climb_steady (expression_steady free).1 (chain_steady fun m _ => (expression_steady m).1) n

theorem operatorAhead_eq_some {op : BinaryOp} {location : Location}
    (h : operatorAhead tokens = some (op, location)) :
    ∃ token rest, tokens = token :: rest := by
  cases tokens with
  | nil => cases h
  | cons token rest => exact ⟨token, rest, rfl⟩

/-- With every operator of a chain one level more is owed, and all of them are closed at its end. -/
theorem follows_fold {tighter : Reading Tree} {n : Nat}
    (operands : ∀ m, m < free → ∀ tokens, Follows 0 tighter m tokens (level m n tokens))
    (bound : Nat) (enough : tokens.length ≤ bound) (left : Tree) (count : Nat) :
    Follows count
      (fold tighter (4 - n) bound left count >>= fun read => exit read.2 >>= fun _ => pure read.1)
      free tokens (chain free n left tokens) := by
  induction bound generalizing free tokens left count with
  | zero =>
    obtain rfl := List.eq_nil_of_length_eq_zero (Nat.le_zero.mp enough)
    rw [chain, fold, pure_bind]
    exact .exit count left []
  | succ bound ih =>
    rw [chain.eq_def, fold, bind_assoc, operatorOf_eq, precedenceLevels]
    refine .peekOperator ?_
    cases ahead : operatorAhead tokens with
    | none => exact .exit count left tokens
    | some found =>
      obtain ⟨op, location⟩ := found
      dsimp only [Option.bind_some]
      by_cases same : op.precedence = 4 - n
      · obtain ⟨token, rest, rfl⟩ := operatorAhead_eq_some ahead
        rw [if_pos same, if_pos same, bind_assoc]
        cases free with
        | zero => exact .enter_zero _
        | succ free =>
          refine .enter ?_
          rw [bind_assoc]
          refine .advance ?_
          rw [bind_assoc]
          refine .bind (level_steady free n rest) (operands free (Nat.lt_succ_self _) rest) ?_
          intro right rest' suffix
          have fewer := suffix.length_le
          rw [List.length_cons] at enough
          refine ih (fun m less => operands m (Nat.lt_succ_of_lt less)) ?_ _ _
          omega
      · rw [if_neg same, if_neg same]
        exact .exit count left tokens

variable {operand inner : Reading Tree}

theorem follows_binary
    (operands : ∀ m, m ≤ free → ∀ tokens, Follows 0 operand m tokens (Syntax.operand m tokens))
    (n : Nat) (tokens : List Token) :
    Follows 0 (binary operand n) free tokens (level free n tokens) := by
  induction n generalizing free tokens with
  | zero => exact operands free (Nat.le_refl free) tokens
  | succ n ih =>
    refine .bind (level_steady free n tokens) (ih operands tokens) fun first rest _ => ?_
    refine .get fun cursor there => ?_
    rw [there.rest_eq]
    refine follows_fold (fun m less => ih fun k least => operands k ?_) _ (Nat.le_refl _) first 0
    omega

theorem follows_operand
    (h : ∀ m, m + 1 = free → ∀ tokens, Follows 0 inner m tokens (Syntax.expression m tokens))
    (tokens : List Token) :
    Follows 0 (Reading.operand inner) free tokens (Syntax.operand free tokens) := by
  refine .peek ?_
  rw [Syntax.operand.eq_def]
  cases tokens with
  | nil => exact .fail _ []
  | cons token rest =>
    dsimp only [List.head?_cons]
    cases token.kind with
    | number => exact .advance (.pure _ rest)
    | identifier => exact .advance (.pure _ rest)
    | delimiter =>
      dsimp only
      split
      · cases free with
        | zero => exact .enter_zero _
        | succ free =>
          refine .enter (.advance ?_)
          refine .bind ((expression_steady free).2 rest) (h free rfl rest) fun value rest _ => ?_
          exact .expect_bind fun rest => .exit 1 value rest
      · exact .fail _ _
    | keyword | operator | comment | fault => exact .fail _ _

theorem follows_expressionWithin (n : Nat) (less : free < n) (tokens : List Token) :
    Follows 0 (expressionWithin n) free tokens (Syntax.expression free tokens) := by
  induction n generalizing free tokens with
  | zero => cases less
  | succ n ih =>
    refine follows_binary (fun m least tokens => ?_) 4 tokens
    exact follows_operand (fun k next => ih (by omega)) tokens

theorem follows_expression (tokens : List Token) :
    Follows 0 expression free tokens (Syntax.expression free tokens) :=
  .of_le_nestingLimit fun least => follows_expressionWithin _ (Nat.lt_succ_of_le least) tokens

theorem follows_condition (tokens : List Token) :
    Follows 0 condition free tokens (Syntax.condition free tokens) := by
  refine .expect_bind fun rest => ?_
  refine .bind ((expression_steady free).2 rest) (follows_expression rest) fun value rest _ => ?_
  exact .expect_bind fun rest => .pure value rest

end Expressions

/-! ## Statements -/

section Statements

variable {free : Nat} {tokens rest : List Token} {token : Token} {inner : Reading Tree}

/-- The identifier is given back, and read again as the beginning of an expression. -/
theorem follows_retreat {assign increment decrement : Reading Tree}
    (assigns : begins .operator "=" rest = false) (increments : begins .operator "++" rest = false)
    (decrements : begins .operator "--" rest = false) :
    Follows 0 (do
        advance
        if ← accept .operator "=" then assign
        else if ← accept .operator "++" then increment
        else if ← accept .operator "--" then decrement
        else do
          retreat
          expression)
      free (token :: rest) (Syntax.expression free (token :: rest)) := by
  intro cursor there owes
  have took : Reading.advance.outcome cursor = (.ok (), cursor.advance) := rfl
  have gave : retreat.outcome cursor.advance = (.ok (), cursor.advance.retreat) := rfl
  rw [there.retreat_advance] at gave
  have ahead := there.advance.2
  rw [outcome_bind_ok took, outcome_accept_other ahead assigns,
    outcome_accept_other ahead increments, outcome_accept_other ahead decrements,
    outcome_bind_ok gave]
  exact follows_expression _ cursor there owes

theorem begins_eq_false {kind : TokenKind} {text : String}
    (h : token.kind = kind → token.text ≠ text) : begins kind text (token :: rest) = false := by
  rw [begins_cons, Bool.eq_false_iff, ne_eq, Token.is_iff]
  exact fun is => h is.1 is.2

theorem follows_simple (tokens : List Token) :
    Follows 0 simple free tokens (Syntax.simple free tokens) := by
  refine .peek ?_
  unfold Syntax.simple
  cases tokens with
  | nil => exact follows_expression []
  | cons token rest =>
    dsimp only [List.head?_cons]
    by_cases identifier : token.kind = .identifier
    · rw [if_pos identifier]
      cases rest with
      | nil => exact follows_retreat rfl rfl rfl
      | cons next rest =>
        by_cases operator : next.kind = .operator
        · dsimp only
          rw [if_pos ⟨identifier, operator⟩]
          by_cases assign : next.text = "="
          · rw [if_pos assign]
            refine .advance (.accept (Token.is_iff.mpr ⟨operator, assign⟩) ?_)
            refine .bind ((expression_steady free).2 rest) (follows_expression rest) ?_
            exact fun value rest _ => .pure _ rest
          · rw [if_neg assign, StepOp.ofSymbol?]
            by_cases increment : next.text = "++"
            · rw [if_pos increment]
              refine .advance ?_
              refine .accept_other (begins_eq_false fun _ => assign) ?_
              exact .accept (Token.is_iff.mpr ⟨operator, increment⟩) (.pure _ rest)
            · rw [if_neg increment]
              by_cases decrement : next.text = "--"
              · rw [if_pos decrement]
                refine .advance ?_
                refine .accept_other (begins_eq_false fun _ => assign) ?_
                refine .accept_other (begins_eq_false fun _ => increment) ?_
                exact .accept (Token.is_iff.mpr ⟨operator, decrement⟩) (.pure _ rest)
              · rw [if_neg decrement]
                exact follows_retreat (begins_eq_false fun _ => assign)
                  (begins_eq_false fun _ => increment) (begins_eq_false fun _ => decrement)
        · dsimp only
          rw [if_neg fun both => operator both.2]
          exact follows_retreat (begins_eq_false fun is => absurd is operator)
            (begins_eq_false fun is => absurd is operator)
            (begins_eq_false fun is => absurd is operator)
    · rw [if_neg identifier]
      cases rest with
      | nil => exact follows_expression _
      | cons next rest =>
        dsimp only
        rw [if_neg fun both => identifier both.1]
        exact follows_expression _

theorem closes_eq {cursor : Cursor} (there : cursor.At free tokens) :
    closes cursor = Syntax.closes tokens :=
  there.check_eq .delimiter closeBrace

theorem closesArm_eq {cursor : Cursor} (there : cursor.At free tokens) :
    closesArm cursor = Syntax.closesArm tokens := by
  rw [closesArm, there.check_eq, there.check_eq, closes_eq there]
  rfl

theorem block_succ {location : Location}
    (place : ∀ token ∈ tokens.head?, location = token.location) :
    Syntax.block (free + 1) tokens = (do
      let rest ← Syntax.expect free .delimiter openBrace tokens
      let (statements, rest) ← readUntil Syntax.closes (Syntax.statement free) rest
      let rest ← Syntax.expect free .delimiter closeBrace rest
      .ok (.block statements location, rest)) := by
  rw [Syntax.block.eq_def, Syntax.expect.eq_def]
  cases tokens with
  | nil => rfl
  | cons brace rest =>
    obtain rfl := place brace rfl
    rw [begins_cons]
    dsimp only
    split
    · rfl
    · rfl

theorem follows_block
    (h : ∀ m, m + 1 = free → ∀ tokens, Follows 0 inner m tokens (Syntax.statement m tokens))
    (tokens : List Token) : Follows 0 (block inner) free tokens (Syntax.block free tokens) := by
  refine .here fun location place => ?_
  cases free with
  | zero =>
    rw [Syntax.block]
    exact .enter_zero tokens
  | succ free =>
    have steady := statement_steady free
    rw [block_succ place]
    refine .enter (.expect_bind fun rest => ?_)
    refine .bind (readUntil_steady steady rest) (follows_many closes_eq steady (h free rfl) rest) ?_
    exact fun statements rest _ => .expect_bind fun rest => .exit 1 _ rest

theorem follows_arm {step : Step Tree} (steady : Steady free step)
    (h : ∀ tokens, Follows 0 inner free tokens (step tokens)) (tokens : List Token) :
    Follows 0 (arm inner) free tokens (Syntax.arm free step tokens) := by
  have bodies : Steady free (readUntil Syntax.closesArm step) := readUntil_steady steady
  have body := follows_many closesArm_eq steady h
  refine .here fun location place => ?_
  cases tokens with
  | nil => exact .accept_other rfl (.accept_other rfl (.fail _ []))
  | cons token rest =>
    obtain rfl := place token rfl
    unfold Syntax.arm
    dsimp only
    split
    · rename_i case
      refine .accept case ?_
      refine .bind ((expression_steady free).2 rest) (follows_expression rest) ?_
      refine fun value rest _ => .expect_bind fun rest => .bind (bodies rest) (body rest) ?_
      exact fun statements rest _ => .pure _ rest
    · rename_i notCase
      refine .accept_other (Bool.eq_false_iff.mpr notCase) ?_
      split
      · rename_i default
        refine .accept default (.expect_bind fun rest => .bind (bodies rest) (body rest) ?_)
        exact fun statements rest _ => .pure _ rest
      · rename_i notDefault
        exact .accept_other (Bool.eq_false_iff.mpr notDefault) (.fail _ _)

theorem follows_arms
    (h : ∀ m, m + 1 = free → ∀ tokens, Follows 0 inner m tokens (Syntax.statement m tokens))
    (tokens : List Token) : Follows 0 (arms inner) free tokens (Syntax.arms free tokens) := by
  rw [Syntax.arms.eq_def]
  cases free with
  | zero => exact .enter_zero tokens
  | succ free =>
    have steady := arm_steady (statement_steady free)
    have each := follows_arm (statement_steady free) (h free rfl)
    refine .enter (.expect_bind fun rest => ?_)
    refine .bind (readUntil_steady steady rest) (follows_many closes_eq steady each rest) ?_
    exact fun arms rest _ => .expect_bind fun rest => .exit 1 arms rest

theorem follows_ifThen
    (blocks : ∀ tokens, Follows 0 (block inner) free tokens (Syntax.block free tokens))
    (location : Location) (tokens : List Token) :
    Follows 0 (ifThen inner location) free tokens (do
      let (test, rest) ← Syntax.condition free tokens
      let (body, rest) ← Syntax.block free rest
      match rest with
      | [] => .ok ({ kind := .ifThen, location, left := some test, right := some body }, rest)
      | other :: after =>
        if other.is .keyword "else" then do
          let (alternative, after) ← Syntax.block free after
          .ok ({ kind := .ifThen, location, left := some test, right := some body,
                 statements := [{ kind := .elseBranch, location := other.location,
                                  right := some alternative }] }, after)
        else
          .ok ({ kind := .ifThen, location, left := some test, right := some body }, rest)) := by
  have steady := (braces_steady free).1
  refine .bind (condition_steady tokens) (follows_condition tokens) fun test rest _ => ?_
  refine .bind (steady rest) (blocks rest) fun body rest _ => .here fun place here => ?_
  cases rest with
  | nil => exact .accept_other rfl (.pure _ [])
  | cons other after =>
    obtain rfl := here other rfl
    dsimp only
    split
    · rename_i alternative
      refine .accept alternative (.bind (steady after) (blocks after) ?_)
      exact fun block rest _ => .pure _ rest
    · rename_i none
      exact .accept_other (Bool.eq_false_iff.mpr none) (.pure _ _)

theorem follows_forLoop
    (blocks : ∀ tokens, Follows 0 (block inner) free tokens (Syntax.block free tokens))
    (location : Location) (tokens : List Token) :
    Follows 0 (forLoop inner location) free tokens (do
      let rest ← Syntax.expect free .delimiter "(" tokens
      let (first, rest) ← Syntax.simple free rest
      let rest ← Syntax.expect free .delimiter ";" rest
      let (test, rest) ← Syntax.expression free rest
      let rest ← Syntax.expect free .delimiter ";" rest
      let (advance, rest) ← Syntax.simple free rest
      let rest ← Syntax.expect free .delimiter ")" rest
      let (body, rest) ← Syntax.block free rest
      .ok ({ kind := .forLoop, location, left := some test, right := some body,
             statements := [first, advance] }, rest)) := by
  refine .expect_bind fun rest => ?_
  refine .bind (simple_steady rest) (follows_simple rest) fun first rest _ => ?_
  refine .expect_bind fun rest => ?_
  refine .bind ((expression_steady free).2 rest) (follows_expression rest) fun test rest _ => ?_
  refine .expect_bind fun rest => ?_
  refine .bind (simple_steady rest) (follows_simple rest) fun advance rest _ => ?_
  refine .expect_bind fun rest => ?_
  refine .bind ((braces_steady free).1 rest) (blocks rest) fun body rest _ => ?_
  exact .pure _ rest

/-- The keywords that tell what a statement is. -/
def statementWords : List String := ["return", "if", "while", "for", "do", "switch"]

theorem follows_statementWith_plain {result : Except Stuck (Tree × List Token)}
    (none : ∀ word ∈ statementWords, begins .keyword word tokens = false)
    (h : ∀ location, (∀ token ∈ tokens.head?, location = token.location) →
      Follows 0 (plain inner location) free tokens result) :
    Follows 0 (statementWith inner) free tokens result := by
  simp only [statementWords, List.forall_mem_cons] at none
  obtain ⟨noReturn, noIf, noWhile, noFor, noDo, noSwitch, -⟩ := none
  refine .here fun location place => ?_
  refine .accept_other noReturn <| .accept_other noIf <| .accept_other noWhile <|
    .accept_other noFor <| .accept_other noDo <| .accept_other noSwitch ?_
  exact h location place

theorem follows_plain_simple (location : Location)
    (brace : begins .delimiter openBrace tokens = false)
    (semicolon : begins .delimiter ";" tokens = false)
    (other : tokens.head?.any (fun token => token.kind = .keyword) = false) :
    Follows 0 (plain inner location) free tokens (do
      let (statement, rest) ← Syntax.simple free tokens
      let rest ← Syntax.expect free .delimiter ";" rest
      .ok (statement, rest)) := by
  refine .check_other brace (.accept_other semicolon (.peek ?_))
  rw [other]
  refine .bind (simple_steady tokens) (follows_simple tokens) fun statement rest _ => ?_
  exact .expect_bind fun rest => .pure statement rest

theorem follows_plain_keyword (location : Location) (keyword : token.kind = .keyword) :
    Follows 0 (plain inner location) free (token :: rest)
      (.error ⟨.statement, token :: rest, free⟩) := by
  have delimiter {text : String} : begins .delimiter text (token :: rest) = false :=
    begins_eq_false fun kind => by rw [keyword] at kind; cases kind
  refine .check_other delimiter (.accept_other delimiter (.peek ?_))
  have any : (token :: rest).head?.any (fun token => token.kind = .keyword) = true :=
    decide_eq_true keyword
  rw [any]
  exact .fail _ _

theorem expression_nil (free : Nat) :
    Syntax.expression free [] = .error ⟨.operand, [], free⟩ := by
  simp only [Syntax.expression, precedenceLevels, climb]
  rw [Syntax.operand]
  rfl

theorem follows_statementWith
    (h : ∀ m, m + 1 = free → ∀ tokens, Follows 0 inner m tokens (Syntax.statement m tokens))
    (tokens : List Token) :
    Follows 0 (statementWith inner) free tokens (Syntax.statement free tokens) := by
  have blocks := follows_block h
  have steady := (braces_steady free).1
  unfold Syntax.statement Syntax.statementWith
  cases tokens with
  | nil =>
    refine follows_statementWith_plain (fun _ _ => rfl) fun location _ => ?_
    have stuck : Syntax.simple free [] = .error ⟨.operand, [], free⟩ := expression_nil free
    have simple := @follows_plain_simple free [] inner location rfl rfl rfl
    rwa [stuck] at simple
  | cons token rest =>
    have apart {word other : String} (text : token.text = word) (ne : word ≠ other) :
        begins .keyword other (token :: rest) = false :=
      begins_eq_false fun _ => text ▸ ne
    have other {kind : TokenKind} {word : String} (is : token.kind = kind) (ne : kind ≠ .keyword) :
        begins .keyword word (token :: rest) = false :=
      begins_eq_false fun keyword => absurd (is.symm.trans keyword) ne
    dsimp only
    -- The cases of `Syntax.statementWith` are in the order in which the reading asks for the words.
    split
    · rename_i kind text
      refine .here_cons (.accept (Token.is_iff.mpr ⟨kind, text⟩) ?_)
      refine .bind ((expression_steady free).2 rest) (follows_expression rest) ?_
      exact fun value rest _ => .expect_bind fun rest => .pure _ rest
    · rename_i kind text
      refine .here_cons <| .accept_other (apart text (by decide)) ?_
      exact .accept (Token.is_iff.mpr ⟨kind, text⟩) (follows_ifThen blocks _ rest)
    · rename_i kind text
      refine .here_cons <| .accept_other (apart text (by decide)) <|
        .accept_other (apart text (by decide)) ?_
      refine .accept (Token.is_iff.mpr ⟨kind, text⟩) ?_
      refine .bind (condition_steady rest) (follows_condition rest) fun test rest _ => ?_
      exact .bind (steady rest) (blocks rest) fun body rest _ => .pure _ rest
    · rename_i kind text
      refine .here_cons <| .accept_other (apart text (by decide)) <|
        .accept_other (apart text (by decide)) <| .accept_other (apart text (by decide)) ?_
      exact .accept (Token.is_iff.mpr ⟨kind, text⟩) (follows_forLoop blocks _ rest)
    · rename_i kind text
      refine .here_cons <| .accept_other (apart text (by decide)) <|
        .accept_other (apart text (by decide)) <| .accept_other (apart text (by decide)) <|
        .accept_other (apart text (by decide)) ?_
      refine .accept (Token.is_iff.mpr ⟨kind, text⟩) ?_
      refine .bind (steady rest) (blocks rest) fun body rest _ => .expect_bind fun rest => ?_
      refine .bind (condition_steady rest) (follows_condition rest) fun test rest _ => ?_
      exact .expect_bind fun rest => .pure _ rest
    · rename_i kind text
      refine .here_cons <| .accept_other (apart text (by decide)) <|
        .accept_other (apart text (by decide)) <| .accept_other (apart text (by decide)) <|
        .accept_other (apart text (by decide)) <| .accept_other (apart text (by decide)) ?_
      refine .accept (Token.is_iff.mpr ⟨kind, text⟩) ?_
      refine .bind (condition_steady rest) (follows_condition rest) fun test rest _ => ?_
      refine .bind ((braces_steady free).2 rest) (follows_arms h rest) fun arms rest _ => ?_
      exact .pure _ rest
    · rename_i kind noReturn noIf noWhile noFor noDo noSwitch
      refine follows_statementWith_plain ?_ fun location _ => follows_plain_keyword location kind
      simp only [statementWords, List.forall_mem_cons]
      exact ⟨begins_eq_false fun _ => noReturn, begins_eq_false fun _ => noIf,
        begins_eq_false fun _ => noWhile, begins_eq_false fun _ => noFor,
        begins_eq_false fun _ => noDo, begins_eq_false fun _ => noSwitch, List.forall_mem_nil _⟩
    · rename_i kind text
      refine follows_statementWith_plain (fun _ _ => other kind (by decide)) ?_
      intro location place
      obtain rfl := place token rfl
      refine .check_other (begins_eq_false fun _ => text ▸ by decide) ?_
      exact .accept (Token.is_iff.mpr ⟨kind, text⟩) (.pure _ rest)
    · rename_i kind text
      refine follows_statementWith_plain (fun _ _ => other kind (by decide)) fun location _ => ?_
      exact .check (Token.is_iff.mpr ⟨kind, text⟩) (blocks _)
    · rename_i keyword _ _ _ _ _ _ semicolon brace
      refine follows_statementWith_plain (fun _ _ => other rfl keyword) fun location _ => ?_
      exact follows_plain_simple location (begins_eq_false brace) (begins_eq_false semicolon)
        (decide_eq_false keyword)

theorem follows_statementWithin (n : Nat) (less : free < n) (tokens : List Token) :
    Follows 0 (statementWithin n) free tokens (Syntax.statement free tokens) := by
  induction n generalizing free tokens with
  | zero => cases less
  | succ n ih => exact follows_statementWith (fun m next => ih (by omega)) tokens

theorem follows_statement (tokens : List Token) :
    Follows 0 statement free tokens (Syntax.statement free tokens) :=
  .of_le_nestingLimit fun least => follows_statementWithin _ (Nat.lt_succ_of_le least) tokens

theorem foldl_joined (statements : List Tree) (before : Tree) :
    statements.foldl (fun before next => some (joined before next)) (some before) =
      some (statements.foldl (fun before next => joined (some before) next) before) := by
  induction statements generalizing before with
  | nil => rfl
  | cons next statements ih => exact ih (joined (some before) next)

theorem foldl_joined_eq_row (statements : List Tree) :
    statements.foldl (fun before next => some (joined before next)) none =
      Tree.row .separator statements := by
  cases statements with
  | nil => rfl
  | cons first others => exact foldl_joined others first

theorem follows_programFrom (bound : Nat) (before : Option Tree) (tokens : List Token) :
    Follows 0 (programFrom bound before) free tokens (do
      let (statements, rest) ←
        readMany (fun tokens => tokens.isEmpty || false) (Syntax.statement free) bound tokens
      .ok (statements.foldl (fun before next => some (joined before next)) before, rest)) := by
  induction bound generalizing before tokens with
  | zero => exact .pure before tokens
  | succ bound ih =>
    refine .get fun cursor there => ?_
    rw [there.atEnd_eq, readMany, Bool.or_false]
    split
    · exact .pure before tokens
    · rw [bind_assoc]
      refine .bind (statement_steady free tokens) (follows_statement tokens) fun next rest _ => ?_
      dsimp only
      rw [bind_assoc]
      exact ih (some (joined before next)) rest

/-- The root grows with every statement. -/
theorem program_eq (start : Location) (tokens : List Token) :
    Syntax.program start free tokens = ((do
        let (statements, rest) ←
          readMany (fun tokens => tokens.isEmpty || false) (Syntax.statement free) tokens.length
            tokens
        .ok (statements.foldl (fun before next => some (joined before next)) none, rest)) >>=
      fun (root, rest) => .ok (root.getD (.block [] start), rest)) := by
  simp only [foldl_joined_eq_row]
  rw [bind_assoc]
  rfl

theorem follows_program (start : Location) (tokens : List Token) :
    Follows 0 (do
        let root ← programFrom (← get).rest.length none
        return root.getD (.block [] start))
      free tokens (Syntax.program start free tokens) := by
  refine .get fun cursor there => ?_
  rw [there.rest_eq, program_eq]
  refine .bind ?_ (follows_programFrom tokens.length none tokens) fun root rest _ => .pure _ rest
  exact (readMany_steady (statement_steady free) tokens.length tokens).bind fun _ rest => .ok _ rest

theorem outcome_program {cursor : Cursor} (there : cursor.At free tokens) :
    program.outcome cursor = cursor.settle (Syntax.program cursor.location free tokens) := by
  have start : here.outcome cursor = (.ok cursor.location, cursor) := rfl
  rw [program, outcome_bind_ok start]
  exact follows_program cursor.location tokens cursor there (Nat.zero_le _)

end Statements

end Reading

/-! ## Cursors -/

namespace Cursor

variable {cursor : Cursor}

theorem InBounds.expression_eq_read (h : cursor.InBounds) :
    cursor.expression = cursor.read Syntax.expression :=
  Reading.follows_expression cursor.rest cursor h.at (Nat.zero_le _)

theorem InBounds.simple_eq_read (h : cursor.InBounds) : cursor.simple = cursor.read Syntax.simple :=
  Reading.follows_simple cursor.rest cursor h.at (Nat.zero_le _)

theorem InBounds.statement_eq_read (h : cursor.InBounds) :
    cursor.statement = cursor.read Syntax.statement :=
  Reading.follows_statement cursor.rest cursor h.at (Nat.zero_le _)

theorem InBounds.block_eq_read (h : cursor.InBounds) : cursor.block = cursor.read Syntax.block :=
  Reading.follows_block (fun _ _ => Reading.follows_statement) cursor.rest cursor h.at
    (Nat.zero_le _)

theorem InBounds.program_eq_read (h : cursor.InBounds) :
    cursor.program = cursor.read (Syntax.program cursor.location) :=
  Reading.outcome_program h.at

/-- One more expression inside of the others changes nothing. -/
theorem InBounds.expression_eq (h : cursor.InBounds) :
    cursor.expression = (Reading.binary (.operand .expression) 4).outcome cursor := by
  have operands (m : Nat) (tokens : List Token) :
      Reading.Follows 0 (.operand .expression) m tokens (Syntax.operand m tokens) :=
    Reading.follows_operand (fun _ _ => Reading.follows_expression) tokens
  have unfolded := Reading.follows_binary (fun m _ => operands m) 4 cursor.rest cursor h.at
  rw [unfolded (Nat.zero_le _)]
  exact h.expression_eq_read

/-- One more statement inside of the others changes nothing. -/
theorem InBounds.statement_eq (h : cursor.InBounds) :
    cursor.statement = (Reading.statementWith .statement).outcome cursor := by
  have unfolded := Reading.follows_statementWith (fun _ _ => Reading.follows_statement) cursor.rest
    cursor h.at
  rw [unfolded (Nat.zero_le _)]
  exact h.statement_eq_read

end Cursor

end Quadrupler
