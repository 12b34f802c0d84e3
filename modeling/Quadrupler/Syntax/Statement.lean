import Quadrupler.Syntax.Expression
set_option autoImplicit false

/-!
# Steps for statements

Specification: sections 4.1 and 10.4 (statement shapes).

Blocks and the arms of a switch open a level of nesting before they look for their
brace, and the definitions recurse on the free levels.  How a statement begins decides
how it goes on; one token of look-ahead past an identifier tells assignments and steps
from expressions.
-/

namespace Quadrupler.Syntax

/-- The brace that begins a block. -/
def openBrace : String := "\x7b"

/-- The brace that ends a block. -/
def closeBrace : String := "\x7d"

/-- A condition: an expression in parentheses, which open no level here. -/
def condition (free : Nat) : Step Tree := fun tokens => do
  let tokens ← expect free .delimiter "(" tokens
  let (value, tokens) ← expression free tokens
  let tokens ← expect free .delimiter ")" tokens
  .ok (value, tokens)

/-- An assignment, a step or an expression, without the semicolon after it. -/
def simple (free : Nat) : Step Tree := fun tokens =>
  match tokens with
  | token :: next :: rest =>
    if token.kind = .identifier ∧ next.kind = .operator then
      let target := Tree.identifier token.text token.location
      if next.text = "=" then do
        let (value, rest) ← expression free rest
        .ok ({ kind := .assign, location := token.location,
               left := some target, right := some value }, rest)
      else
        match StepOp.ofSymbol? next.text with
        | some op =>
          .ok ({ kind := .step op, location := token.location, left := some target }, rest)
        | none => expression free tokens
    else
      expression free tokens
  | _ => expression free tokens

/-- The tokens begin with the end of a block. -/
def closes (tokens : List Token) : Bool := begins .delimiter closeBrace tokens

/-- The tokens begin with what ends the body of an arm. -/
def closesArm (tokens : List Token) : Bool :=
  begins .keyword "case" tokens || begins .keyword "default" tokens || closes tokens

/-- A statement, given how its blocks and the arms of its switches are read. -/
def statementWith (free : Nat) (block : Step Tree) (arms : Step (List Tree)) : Step Tree :=
  fun tokens =>
  match tokens with
  | [] => .error ⟨.operand, tokens, free⟩
  | token :: rest =>
    let location := token.location
    match token.kind, token.text with
    | .keyword, "return" => do
      let (value, rest) ← expression free rest
      let rest ← expect free .delimiter ";" rest
      .ok ({ kind := .returning, location, right := some value }, rest)
    | .keyword, "if" => do
      let (test, rest) ← condition free rest
      let (body, rest) ← block rest
      match rest with
      | [] => .ok ({ kind := .ifThen, location, left := some test, right := some body }, rest)
      | other :: after =>
        if other.is .keyword "else" then do
          let (alternative, after) ← block after
          .ok ({ kind := .ifThen, location, left := some test, right := some body,
                 statements := [{ kind := .elseBranch, location := other.location,
                                  right := some alternative }] }, after)
        else
          .ok ({ kind := .ifThen, location, left := some test, right := some body }, rest)
    | .keyword, "while" => do
      let (test, rest) ← condition free rest
      let (body, rest) ← block rest
      .ok ({ kind := .whileLoop, location, left := some test, right := some body }, rest)
    | .keyword, "for" => do
      let rest ← expect free .delimiter "(" rest
      let (first, rest) ← simple free rest
      let rest ← expect free .delimiter ";" rest
      let (test, rest) ← expression free rest
      let rest ← expect free .delimiter ";" rest
      let (advance, rest) ← simple free rest
      let rest ← expect free .delimiter ")" rest
      let (body, rest) ← block rest
      .ok ({ kind := .forLoop, location, left := some test, right := some body,
             statements := [first, advance] }, rest)
    | .keyword, "do" => do
      let (body, rest) ← block rest
      let rest ← expect free .keyword "while" rest
      let (test, rest) ← condition free rest
      let rest ← expect free .delimiter ";" rest
      .ok ({ kind := .doLoop, location, left := some test, right := some body }, rest)
    | .keyword, "switch" => do
      let (discriminant, rest) ← condition free rest
      let (statements, rest) ← arms rest
      .ok ({ kind := .switch, location, left := some discriminant, statements }, rest)
    | .keyword, _ => .error ⟨.statement, tokens, free⟩
    | .delimiter, ";" => .ok ({ kind := .empty, location }, rest)
    | .delimiter, "\x7b" => block tokens
    | _, _ => do
      let (statement, rest) ← simple free tokens
      let rest ← expect free .delimiter ";" rest
      .ok (statement, rest)

/-- An arm of a switch, given how the statements of its body are read. -/
def arm (free : Nat) (statement : Step Tree) : Step Tree := fun tokens =>
  match tokens with
  | [] => .error ⟨.arm, tokens, free⟩
  | token :: rest =>
    let location := token.location
    if token.is .keyword "case" then do
      let (constant, rest) ← expression free rest
      let rest ← expect free .delimiter ":" rest
      let (body, rest) ← readUntil closesArm statement rest
      .ok ({ kind := .caseArm, location, left := some constant,
             right := some (.block body location) }, rest)
    else if token.is .keyword "default" then do
      let rest ← expect free .delimiter ":" rest
      let (body, rest) ← readUntil closesArm statement rest
      .ok ({ kind := .defaultArm, location, right := some (.block body location) }, rest)
    else
      .error ⟨.arm, tokens, free⟩

mutual

/-- A block: statements in braces. -/
def block (free : Nat) (tokens : List Token) : Except Stuck (Tree × List Token) :=
  match free with
  | 0 => .error ⟨.fewerLevels, tokens, 0⟩
  | free + 1 =>
    match tokens with
    | [] => .error ⟨.exactly openBrace, tokens, free⟩
    | brace :: rest =>
      if brace.is .delimiter openBrace then do
        let (statements, rest) ← readUntil closes (statementWith free (block free) (arms free)) rest
        let rest ← expect free .delimiter closeBrace rest
        .ok (.block statements brace.location, rest)
      else
        .error ⟨.exactly openBrace, tokens, free⟩

/-- The arms of a switch, in braces. -/
def arms (free : Nat) (tokens : List Token) : Except Stuck (List Tree × List Token) :=
  match free with
  | 0 => .error ⟨.fewerLevels, tokens, 0⟩
  | free + 1 => do
    let rest ← expect free .delimiter openBrace tokens
    let (statements, rest) ←
      readUntil closes (arm free (statementWith free (block free) (arms free))) rest
    let rest ← expect free .delimiter closeBrace rest
    .ok (statements, rest)

end

/-- Reads a statement. -/
def statement (free : Nat) : Step Tree := statementWith free (block free) (arms free)

/-- Reads statements to the end of the tokens, which begin at `here`. -/
def program (here : Location) (free : Nat) : Step Tree := fun tokens => do
  let (statements, rest) ← readUntil (fun _ => false) (statement free) tokens
  .ok ((Tree.row .separator statements).getD (.block [] here), rest)

end Quadrupler.Syntax
