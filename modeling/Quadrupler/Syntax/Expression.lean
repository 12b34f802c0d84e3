import Quadrupler.Syntax.Step
import Quadrupler.Tree.Basic
set_option autoImplicit false

/-!
# Steps for expressions

Specification: section 4.1 (precedence, grouping to the left).

An expression is a chain of operands on each of the four levels of precedence, the
loosest outermost, and every chain groups to the left.  A pair of parentheses opens a
level of nesting for what it holds; each operator of a chain opens one that lasts to
the end of the chain.  So the free levels bound both the depth of the recursion and the
length of a chain, and all definitions recurse on them.
-/

namespace Quadrupler.Syntax

/-- The operator of this precedence that the tokens begin with, its place, and what
follows it. -/
def operatorOf (precedence : Nat) : List Token → Option (BinaryOp × Location × List Token)
  | [] => none
  | token :: rest =>
    if token.kind = .operator then
      match BinaryOp.ofSymbol? token.text with
      | some op => if op.precedence = precedence then some (op, token.location, rest) else none
      | none => none
    else
      none

/-- The number of levels of precedence. -/
def precedenceLevels : Nat := 4

/-- Reads an expression from the `n` tightest levels of precedence: an operand, continued
on each level by the operators of that level. -/
def climb (operand : Step Tree) (continued : Nat → Tree → Step Tree) : Nat → Step Tree
  | 0, tokens => operand tokens
  | n + 1, tokens => do
    let (left, tokens) ← climb operand continued n tokens
    continued n left tokens

mutual

/-- A number, an identifier, or an expression in parentheses. -/
def operand (free : Nat) (tokens : List Token) : Except Stuck (Tree × List Token) :=
  match tokens with
  | [] => .error ⟨.operand, tokens, free⟩
  | token :: rest =>
    match token.kind with
    | .number => .ok (.number token.text token.location, rest)
    | .identifier => .ok (.identifier token.text token.location, rest)
    | .delimiter =>
      if token.text = "(" then
        match free with
        | 0 => .error ⟨.fewerLevels, tokens, 0⟩
        | free + 1 => do
          let (inner, rest) ← climb (operand free) (chain free) precedenceLevels rest
          let rest ← expect free .delimiter ")" rest
          .ok (inner, rest)
      else
        .error ⟨.operand, tokens, free⟩
    | .keyword | .operator | .comment | .fault => .error ⟨.operand, tokens, free⟩

/-- Continues `left` by operators with exactly `n` levels of precedence above them. -/
def chain (free : Nat) (n : Nat) (left : Tree) (tokens : List Token) :
    Except Stuck (Tree × List Token) :=
  match operatorOf (precedenceLevels - n) tokens with
  | none => .ok (left, tokens)
  | some (op, location, rest) =>
    match free with
    | 0 => .error ⟨.fewerLevels, tokens, 0⟩
    | free + 1 => do
      let (right, rest) ← climb (operand free) (chain free) n rest
      chain free n (.binary op left right location) rest

end

/-- Reads an expression. -/
def expression (free : Nat) : Step Tree :=
  climb (operand free) (chain free) precedenceLevels

end Quadrupler.Syntax
