import Quadrupler.Token.Basic
import Quadrupler.Tree.Basic
set_option autoImplicit false

/-!
# The grammar

Specification: sections 4.1 and 10.4 (precedence, statement shapes, nesting limit).

Which tokens make up which tree, and how many levels of nesting they need.  Parentheses
and braces need one level more than what they hold.  In a chain of operators the operand
behind the n-th operator stands n levels in; the first operand stands on the level of the
chain.
-/

namespace Quadrupler.Syntax.Grammar

/-! ## Expressions -/

/-- The operators with `n` levels of precedence above their own, as they are written.  Powers bind
tightest; then products, sums and comparisons follow. -/
def signs : Nat → List (String × BinaryOp)
  | 0 => [("^", .pow)]
  | 1 => [("*", .mul), ("/", .div), ("%", .rem)]
  | 2 => [("+", .add), ("-", .sub)]
  | 3 => [("<", .lt), (">", .gt), ("<=", .le), (">=", .ge), ("==", .eq), ("!=", .ne)]
  | _ => []

mutual

/-- The tokens are an operand that needs so many levels. -/
inductive Operand : List Token → Tree → Nat → Prop where
  | number {token : Token} :
      token.kind = .number →
      Operand [token] { kind := .number token.text, location := token.location } 0
  | identifier {token : Token} :
      token.kind = .identifier →
      Operand [token] { kind := .identifier token.text, location := token.location } 0
  | enclosed {left right : Token} {tokens : List Token} {t : Tree} {levels : Nat} :
      left.is .delimiter "(" = true → right.is .delimiter ")" = true →
      Level 4 tokens t levels →
      Operand (left :: tokens ++ [right]) t (levels + 1)

/-- The tokens are an expression of the `n` tightest levels of precedence. -/
inductive Level : Nat → List Token → Tree → Nat → Prop where
  | operand {tokens : List Token} {t : Tree} {levels : Nat} :
      Operand tokens t levels → Level 0 tokens t levels
  | chain {n operators : Nat} {tokens : List Token} {t : Tree} {levels : Nat} :
      Chain n operators tokens t levels → Level (n + 1) tokens t levels

/-- The tokens are a chain of so many operators with `n` levels of precedence above
them. -/
inductive Chain : Nat → Nat → List Token → Tree → Nat → Prop where
  | single {n : Nat} {tokens : List Token} {t : Tree} {levels : Nat} :
      Level n tokens t levels → Chain n 0 tokens t levels
  | more {n operators : Nat} {tokens others : List Token} {token : Token} {op : BinaryOp}
      {left right : Tree} {before behind : Nat} :
      Chain n operators tokens left before →
      token.kind = .operator → (token.text, op) ∈ signs n →
      Level n others right behind →
      Chain n (operators + 1) (tokens ++ token :: others)
        { kind := .binary op, location := token.location, left := some left, right := some right }
        (max before (operators + 1 + behind))

end

/-- The tokens are an expression: all four levels of precedence. -/
abbrev Expression : List Token → Tree → Nat → Prop := Level 4

/-- An expression in parentheses that need no level. -/
inductive Condition : List Token → Tree → Nat → Prop where
  | mk {left right : Token} {tokens : List Token} {t : Tree} {levels : Nat} :
      left.is .delimiter "(" = true → right.is .delimiter ")" = true →
      Expression tokens t levels → Condition (left :: tokens ++ [right]) t levels

/-! ## Statements -/

/-- An assignment, a step or an expression. -/
inductive Simple : List Token → Tree → Nat → Prop where
  | assign {name sign : Token} {tokens : List Token} {t : Tree} {levels : Nat} :
      name.kind = .identifier → sign.is .operator "=" = true → Expression tokens t levels →
      Simple (name :: sign :: tokens)
        { kind := .assign, location := name.location,
          left := some { kind := .identifier name.text, location := name.location },
          right := some t } levels
  | step {name sign : Token} {op : StepOp} :
      name.kind = .identifier → sign.is .operator op.symbol = true →
      Simple [name, sign]
        { kind := .step op, location := name.location,
          left := some { kind := .identifier name.text, location := name.location } } 0
  | expression {tokens : List Token} {t : Tree} {levels : Nat} :
      Expression tokens t levels → Simple tokens t levels

mutual

/-- The tokens are a statement. -/
inductive Statement : List Token → Tree → Nat → Prop where
  | returning {word semicolon : Token} {tokens : List Token} {t : Tree} {levels : Nat} :
      word.is .keyword "return" = true → semicolon.is .delimiter ";" = true →
      Expression tokens t levels →
      Statement (word :: tokens ++ [semicolon])
        { kind := .returning, location := word.location, right := some t } levels
  | ifThen {word : Token} {test body : List Token} {e b : Tree} {m n : Nat} :
      word.is .keyword "if" = true → Condition test e m → Block body b n →
      Statement (word :: test ++ body)
        { kind := .ifThen, location := word.location, left := some e, right := some b } (max m n)
  | ifElse {word other : Token} {test body alternative : List Token} {e b a : Tree}
      {m n k : Nat} :
      word.is .keyword "if" = true → other.is .keyword "else" = true →
      Condition test e m → Block body b n → Block alternative a k →
      Statement (word :: test ++ body ++ other :: alternative)
        { kind := .ifThen, location := word.location, left := some e, right := some b,
          statements := [{ kind := .elseBranch, location := other.location, right := some a }] }
        (max m (max n k))
  | whileLoop {word : Token} {test body : List Token} {e b : Tree} {m n : Nat} :
      word.is .keyword "while" = true → Condition test e m → Block body b n →
      Statement (word :: test ++ body)
        { kind := .whileLoop, location := word.location, left := some e, right := some b }
        (max m n)
  | forLoop {word left one two right : Token} {first test advance body : List Token}
      {i e a b : Tree} {j k m n : Nat} :
      word.is .keyword "for" = true → left.is .delimiter "(" = true →
      one.is .delimiter ";" = true → two.is .delimiter ";" = true →
      right.is .delimiter ")" = true →
      Simple first i j → Expression test e k → Simple advance a m → Block body b n →
      Statement (word :: left :: first ++ one :: test ++ two :: advance ++ right :: body)
        { kind := .forLoop, location := word.location, left := some e, right := some b,
          statements := [i, a] }
        (max j (max k (max m n)))
  | doLoop {word again semicolon : Token} {body test : List Token} {b e : Tree} {m n : Nat} :
      word.is .keyword "do" = true → again.is .keyword "while" = true →
      semicolon.is .delimiter ";" = true → Block body b m → Condition test e n →
      Statement (word :: body ++ again :: test ++ [semicolon])
        { kind := .doLoop, location := word.location, left := some e, right := some b } (max m n)
  | switch {word left right : Token} {test body : List Token} {e : Tree} {arms : List Tree}
      {m n : Nat} :
      word.is .keyword "switch" = true → left.is .delimiter "\x7b" = true →
      right.is .delimiter "\x7d" = true → Condition test e m → Arms body arms n →
      Statement (word :: test ++ left :: body ++ [right])
        { kind := .switch, location := word.location, left := some e, statements := arms }
        (max m (n + 1))
  | block {tokens : List Token} {t : Tree} {levels : Nat} :
      Block tokens t levels → Statement tokens t levels
  | empty {semicolon : Token} :
      semicolon.is .delimiter ";" = true →
      Statement [semicolon] { kind := .empty, location := semicolon.location } 0
  | simple {semicolon : Token} {tokens : List Token} {t : Tree} {levels : Nat} :
      semicolon.is .delimiter ";" = true → Simple tokens t levels →
      Statement (tokens ++ [semicolon]) t levels

/-- The tokens are a block: statements in braces. -/
inductive Block : List Token → Tree → Nat → Prop where
  | mk {left right : Token} {tokens : List Token} {ts : List Tree} {levels : Nat} :
      left.is .delimiter "\x7b" = true → right.is .delimiter "\x7d" = true →
      Statements tokens ts levels →
      Block (left :: tokens ++ [right])
        { kind := .block, location := left.location, statements := ts } (levels + 1)

/-- Statements in a row, which need as many levels as any one of them. -/
inductive Statements : List Token → List Tree → Nat → Prop where
  | nil : Statements [] [] 0
  | cons {tokens others : List Token} {t : Tree} {ts : List Tree} {m n : Nat} :
      Statement tokens t m → Statements others ts n →
      Statements (tokens ++ others) (t :: ts) (max m n)

/-- The arms of a switch. -/
inductive Arms : List Token → List Tree → Nat → Prop where
  | nil : Arms [] [] 0
  | caseArm {word colon : Token} {test body others : List Token} {e : Tree} {ts arms : List Tree}
      {k m n : Nat} :
      word.is .keyword "case" = true → colon.is .delimiter ":" = true →
      Expression test e k → Statements body ts m → Arms others arms n →
      Arms (word :: test ++ colon :: body ++ others)
        ({ kind := .caseArm, location := word.location, left := some e,
           right := some { kind := .block, location := word.location, statements := ts } } :: arms)
        (max k (max m n))
  | defaultArm {word colon : Token} {body others : List Token} {ts arms : List Tree} {m n : Nat} :
      word.is .keyword "default" = true → colon.is .delimiter ":" = true →
      Statements body ts m → Arms others arms n →
      Arms (word :: colon :: body ++ others)
        ({ kind := .defaultArm, location := word.location,
           right := some { kind := .block, location := word.location, statements := ts } } :: arms)
        (max m n)

end

/-- The tokens are a program; one without statements is an empty block. -/
inductive Program : List Token → Tree → Nat → Prop where
  | mk {tokens : List Token} {ts : List Tree} {levels : Nat} :
      Statements tokens ts levels →
      Program tokens
        ((Tree.row .separator ts).getD { kind := .block, location := .start, statements := [] })
        levels

end Quadrupler.Syntax.Grammar
