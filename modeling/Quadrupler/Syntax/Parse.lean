import Quadrupler.Syntax.Reading
import Quadrupler.Tree.Basic
set_option autoImplicit false

/-!
# The parser

Specification: sections 4.1 and 10.4 (grammar, statement shapes, nesting limit).

Levels of nesting are opened at four places: before a parenthesis, before each operator of a
chain, before the brace of a block and before the brace of a switch.  Parentheses and braces close
their level when they are closed; a chain counts its operators and closes all their levels at its
end.

What stands inside of parentheses or braces is read by a reading that is given as an argument, and
`expressionWithin` and `statementWithin` put the readings into each other.  A reading inside of
another begins with one more level open, so as many readings inside of each other as there are
levels are enough, and one more is never begun (`Cursor.InBounds.expression_eq`,
`Cursor.InBounds.statement_eq`).
-/

namespace Quadrupler

namespace Reading

open Syntax

/-! ## Expressions -/

/-- The operator that the next token is, and its place. -/
def peekOperator : Reading (Option (BinaryOp × Location)) := do
  match ← peek with
  | some token =>
    if token.kind = .operator then
      return (BinaryOp.ofSymbol? token.text).map fun op => (op, token.location)
    else
      return none
  | none => return none

/-- Continues `left` by at most `bound` operators of a precedence, with an operand behind each.
Every operator opens a level, and `count` goes on counting them. -/
def fold (tighter : Reading Tree) (precedence : Nat) : Nat → Tree → Nat → Reading (Tree × Nat)
  | 0, left, count => return (left, count)
  | bound + 1, left, count => do
    match ← peekOperator with
    | some (op, location) =>
      if op.precedence = precedence then
        enter
        advance
        let right ← tighter
        fold tighter precedence bound (.binary op left right location) (count + 1)
      else
        return (left, count)
    | none => return (left, count)

/-- An expression of the `n` tightest of the four levels of precedence.  The levels of nesting
that the operators of a chain have opened are closed together. -/
def binary (operand : Reading Tree) : Nat → Reading Tree
  | 0 => operand
  | n + 1 => do
    let first ← binary operand n
    let (chain, count) ← fold (binary operand n) (4 - n) (← get).rest.length first 0
    exit count
    return chain

/-- A number, an identifier, or in parentheses what `inner` reads. -/
def operand (inner : Reading Tree) : Reading Tree := do
  match ← peek with
  | none => fail .operand
  | some token =>
    match token.kind with
    | .number =>
      advance
      return .number token.text token.location
    | .identifier =>
      advance
      return .identifier token.text token.location
    | .delimiter =>
      if token.text = "(" then
        enter
        advance
        let value ← inner
        expect .delimiter ")"
        exit 1
        return value
      else
        fail .operand
    | _ => fail .operand

/-- An expression with at most `n` expressions inside of each other. -/
def expressionWithin : Nat → Reading Tree
  | 0 => fail .fewerLevels
  | n + 1 => binary (operand (expressionWithin n)) 4

/-- An expression. -/
def expression : Reading Tree := expressionWithin (nestingLimit + 1)

/-- An expression in parentheses that open no level. -/
def condition : Reading Tree := do
  expect .delimiter "("
  let value ← expression
  expect .delimiter ")"
  return value

/-! ## Statements -/

/-- An assignment, a step or an expression, without the semicolon after it.  An identifier is taken
first, and given back if neither an assignment nor a step goes on behind it. -/
def simple : Reading Tree := do
  match ← peek with
  | some token =>
    if token.kind = .identifier then
      let target := Tree.identifier token.text token.location
      advance
      if ← accept .operator "=" then
        let value ← expression
        return { kind := .assign, location := token.location,
                 left := some target, right := some value }
      else if ← accept .operator "++" then
        return { kind := .step .increment, location := token.location, left := some target }
      else if ← accept .operator "--" then
        return { kind := .step .decrement, location := token.location, left := some target }
      else
        retreat
        expression
    else
      expression
  | none => expression

/-- The cursor is before the end of a block. -/
def closes (cursor : Cursor) : Bool := cursor.check .delimiter "\x7d"

/-- The cursor is before what ends the body of an arm. -/
def closesArm (cursor : Cursor) : Bool :=
  cursor.check .keyword "case" || cursor.check .keyword "default" || closes cursor

/-- A block, given how the statements inside are read. -/
def block (inner : Reading Tree) : Reading Tree := do
  let location ← here
  enter
  expect .delimiter "\x7b"
  let statements ← many closes inner
  expect .delimiter "\x7d"
  exit 1
  return .block statements location

/-- An arm of a switch, given how the statements of its body are read. -/
def arm (inner : Reading Tree) : Reading Tree := do
  let location ← here
  if ← accept .keyword "case" then
    let constant ← expression
    expect .delimiter ":"
    let body ← many closesArm inner
    return { kind := .caseArm, location, left := some constant,
             right := some (.block body location) }
  else if ← accept .keyword "default" then
    expect .delimiter ":"
    let body ← many closesArm inner
    return { kind := .defaultArm, location, right := some (.block body location) }
  else
    fail .arm

/-- The arms of a switch, in braces. -/
def arms (inner : Reading Tree) : Reading (List Tree) := do
  enter
  expect .delimiter "\x7b"
  let arms ← many closes (arm inner)
  expect .delimiter "\x7d"
  exit 1
  return arms

/-- What follows the keyword of an `if`. -/
def ifThen (inner : Reading Tree) (location : Location) : Reading Tree := do
  let test ← condition
  let body ← block inner
  let place ← here
  if ← accept .keyword "else" then
    let alternative ← block inner
    return { kind := .ifThen, location, left := some test, right := some body,
             statements := [{ kind := .elseBranch, location := place,
                              right := some alternative }] }
  else
    return { kind := .ifThen, location, left := some test, right := some body }

/-- What follows the keyword of a `for`. -/
def forLoop (inner : Reading Tree) (location : Location) : Reading Tree := do
  expect .delimiter "("
  let first ← simple
  expect .delimiter ";"
  let test ← expression
  expect .delimiter ";"
  let advance ← simple
  expect .delimiter ")"
  let body ← block inner
  return { kind := .forLoop, location, left := some test, right := some body,
           statements := [first, advance] }

/-- A statement that no keyword begins: a block, an empty statement, or a simple one with its
semicolon. -/
def plain (inner : Reading Tree) (location : Location) : Reading Tree := do
  if (← get).check .delimiter "\x7b" then
    block inner
  else if ← accept .delimiter ";" then
    return { kind := .empty, location }
  else if (← peek).any fun token => token.kind = .keyword then
    fail .statement
  else
    let statement ← simple
    expect .delimiter ";"
    return statement

/-- A statement, given how the statements inside of its braces are read. -/
def statementWith (inner : Reading Tree) : Reading Tree := do
  let location ← here
  if ← accept .keyword "return" then
    let value ← expression
    expect .delimiter ";"
    return { kind := .returning, location, right := some value }
  else if ← accept .keyword "if" then
    ifThen inner location
  else if ← accept .keyword "while" then
    let test ← condition
    let body ← block inner
    return { kind := .whileLoop, location, left := some test, right := some body }
  else if ← accept .keyword "for" then
    forLoop inner location
  else if ← accept .keyword "do" then
    let body ← block inner
    expect .keyword "while"
    let test ← condition
    expect .delimiter ";"
    return { kind := .doLoop, location, left := some test, right := some body }
  else if ← accept .keyword "switch" then
    let discriminant ← condition
    let statements ← arms inner
    return { kind := .switch, location, left := some discriminant, statements }
  else
    plain inner location

/-- A statement with at most `n` statements inside of each other. -/
def statementWithin : Nat → Reading Tree
  | 0 => fail .fewerLevels
  | n + 1 => statementWith (statementWithin n)

/-- A statement. -/
def statement : Reading Tree := statementWithin (nestingLimit + 1)

/-- A statement joined to what has been read before it, at the place of the statement. -/
def joined (before : Option Tree) (next : Tree) : Tree :=
  match before with
  | none => next
  | some before =>
    { kind := .separator, location := next.location, left := some before, right := some next }

/-- At most `bound` statements, to the end, joined to what has been read before. -/
def programFrom : Nat → Option Tree → Reading (Option Tree)
  | 0, before => return before
  | bound + 1, before => do
    if (← get).atEnd then
      return before
    else
      let next ← statement
      programFrom bound (some (joined before next))

/-- A program: statements to the end.  One without statements is an empty block. -/
def program : Reading Tree := do
  let start ← here
  let root ← programFrom (← get).rest.length none
  return root.getD (.block [] start)

end Reading

namespace Cursor

/-- Reads an expression. -/
def expression (cursor : Cursor) : Except SyntaxError Tree × Cursor :=
  Reading.expression.outcome cursor

/-- Reads an assignment, a step or an expression. -/
def simple (cursor : Cursor) : Except SyntaxError Tree × Cursor := Reading.simple.outcome cursor

/-- Reads a statement. -/
def statement (cursor : Cursor) : Except SyntaxError Tree × Cursor :=
  Reading.statement.outcome cursor

/-- Reads a block. -/
def block (cursor : Cursor) : Except SyntaxError Tree × Cursor :=
  (Reading.block Reading.statement).outcome cursor

/-- Reads statements to the end. -/
def program (cursor : Cursor) : Except SyntaxError Tree × Cursor := Reading.program.outcome cursor

end Cursor

/-- The tree of the tokens of a program. -/
def parseTokens (tokens : List Token) : Except SyntaxError Tree :=
  (Cursor.ofTokens tokens).program.1

/-- The tree of a program, as it is written. -/
def parse (source : String) : Except SyntaxError Tree := parseTokens (Token.scan source)

end Quadrupler
