import Mathlib.Algebra.BigOperators.Group.List.Basic
import Mathlib.Tactic.Abel
import Quadrupler.Proofs.Lowering.Price
import Quadrupler.Proofs.Syntax.Program
set_option autoImplicit false

/-!
# The tokens of a program pay for its tree

If every operator and every word pays for the node that it makes, and all other tokens are free,
then the tokens of a program pay for all nodes of its tree that are lowered.  The two words of a
`do` loop pay for it together.
-/

namespace Quadrupler

variable {M : Type} [AddCommMonoid M]

namespace Token

/-- What tokens pay together. -/
def total (price : Token → M) (tokens : List Token) : M := (tokens.map price).sum

variable {price : Token → M}

theorem total_nil : total price [] = 0 := rfl

theorem total_cons (token : Token) (tokens : List Token) :
    total price (token :: tokens) = price token + total price tokens := by
  rw [total, List.map_cons, List.sum_cons, total]

theorem total_append (tokens others : List Token) :
    total price (tokens ++ others) = total price tokens + total price others := by
  rw [total, List.map_append, List.sum_append, total, total]

/-- Comments can be left out where they are free. -/
theorem total_significant (free : ∀ token : Token, token.kind = .comment → price token = 0)
    (tokens : List Token) : total price (significant tokens) = total price tokens := by
  induction tokens with
  | nil => rfl
  | cons token tokens ih =>
    by_cases comment : token.kind = .comment
    · rw [total_cons, free token comment, zero_add, ← ih]
      simp [significant, comment]
    · rw [total_cons, ← ih, ← total_cons]
      simp [significant, comment]

end Token

namespace Syntax

open Grammar
open Quadrupler.Tree (Kind allTotal slotTotal)

/-- Every token that makes a node pays what the node is worth, and no other token pays. -/
structure Pays (price : Token → M) (worth : Kind → M) : Prop where
  number {token : Token} : token.kind = .number → price token = 0
  identifier {token : Token} : token.kind = .identifier → price token = 0
  delimiter {token : Token} {text : String} : token.is .delimiter text = true → price token = 0
  leaf {text : String} : worth (.number text) = 0 ∧ worth (.identifier text) = 0
  braces : worth .block = 0 ∧ worth .empty = 0
  binary {token : Token} {op : BinaryOp} {n : Nat} :
    token.kind = .operator → (token.text, op) ∈ signs n → price token = worth (.binary op)
  assign {token : Token} : token.is .operator "=" = true → price token = worth .assign
  step {token : Token} {op : StepOp} :
    token.is .operator op.symbol = true → price token = worth (.step op)
  returning {word : Token} : word.is .keyword "return" = true → price word = worth .returning
  ifThen {word : Token} : word.is .keyword "if" = true → price word = worth .ifThen
  elseBranch {word : Token} : word.is .keyword "else" = true → price word = worth .elseBranch
  whileLoop {word : Token} : word.is .keyword "while" = true → price word = worth .whileLoop
  forLoop {word : Token} : word.is .keyword "for" = true → price word = worth .forLoop
  doLoop {word again : Token} : word.is .keyword "do" = true → again.is .keyword "while" = true →
    price word + price again = worth .doLoop
  switch {word : Token} : word.is .keyword "switch" = true → price word = worth .switch
  caseArm {word : Token} : word.is .keyword "case" = true → price word = worth .caseArm
  defaultArm {word : Token} : word.is .keyword "default" = true → price word = worth .defaultArm

namespace Pays

open Quadrupler.Token (total total_nil total_cons total_append)

variable {price : Token → M} {worth : Kind → M}

theorem enclosed (pays : Pays price worth) {left right : Token} {open_ close : String}
    (tokens : List Token) (hleft : left.is .delimiter open_ = true)
    (hright : right.is .delimiter close = true) :
    total price (left :: tokens ++ [right]) = total price tokens := by
  simp only [total_append, total_cons, total_nil, pays.delimiter hleft, pays.delimiter hright]
  abel

/-! ## Expressions -/

mutual

theorem operand (pays : Pays price worth) : ∀ {tokens : List Token} {t : Tree} {levels : Nat},
    Grammar.Operand tokens t levels → t.total worth = total price tokens
  | _, _, _, .number h => by
    rw [total_cons, pays.number h, total_nil, add_zero, Tree.total, pays.leaf.1]
  | _, _, _, .identifier h => by
    rw [total_cons, pays.identifier h, total_nil, add_zero, Tree.total, pays.leaf.2]
  | _, _, _, .enclosed hleft hright h => by
    rw [pays.enclosed _ hleft hright]
    exact pays.level h

theorem level (pays : Pays price worth) :
    ∀ {n : Nat} {tokens : List Token} {t : Tree} {levels : Nat},
    Level n tokens t levels → t.total worth = total price tokens
  | _, _, _, _, .operand h => pays.operand h
  | _, _, _, _, .chain h => pays.chain h

theorem chain (pays : Pays price worth) :
    ∀ {n k : Nat} {tokens : List Token} {t : Tree} {levels : Nat},
    Chain n k tokens t levels → t.total worth = total price tokens
  | _, _, _, _, _, .single h => pays.level h
  | _, _, _, _, _, .more left hkind hop right => by
    simp only [total_append, total_cons, pays.binary hkind hop, Tree.total, slotTotal,
      pays.chain left, pays.level right]
    abel

end

theorem condition (pays : Pays price worth) {tokens : List Token} {t : Tree} {levels : Nat}
    (h : Condition tokens t levels) : t.total worth = total price tokens := by
  cases h with
  | mk hleft hright h =>
    rw [pays.enclosed _ hleft hright]
    exact pays.level h

/-! ## Statements -/

theorem simple (pays : Pays price worth) {tokens : List Token} {t : Tree} {levels : Nat}
    (h : Simple tokens t levels) : t.total worth = total price tokens := by
  cases h with
  | assign hname hsign h =>
    simp only [total_cons, pays.identifier hname, pays.assign hsign, Tree.total, slotTotal,
      pays.level h]
    abel
  | step hname hsign =>
    simp only [total_cons, total_nil, pays.identifier hname, pays.step hsign, Tree.total]
    abel
  | expression h => exact pays.level h

mutual

theorem statement (pays : Pays price worth) : ∀ {tokens : List Token} {t : Tree} {levels : Nat},
    Statement tokens t levels → t.total worth = total price tokens
  | _, _, _, .returning hword hsemicolon h => by
    simp only [total_append, total_cons, total_nil, pays.returning hword,
      pays.delimiter hsemicolon, Tree.total, slotTotal, pays.level h]
    abel
  | _, _, _, .ifThen hword he hb => by
    simp only [total_append, total_cons, pays.ifThen hword, Tree.total, slotTotal, allTotal,
      pays.condition he, pays.block hb]
    abel
  | _, _, _, .ifElse hword hother he hb ha => by
    simp only [total_append, total_cons, pays.ifThen hword, pays.elseBranch hother, Tree.total,
      slotTotal, allTotal, pays.condition he, pays.block hb, pays.block ha]
    abel
  | _, _, _, .whileLoop hword he hb => by
    simp only [total_append, total_cons, pays.whileLoop hword, Tree.total, slotTotal,
      pays.condition he, pays.block hb]
  | _, _, _, .forLoop hword hleft hone htwo hright hi he ha hb => by
    simp only [total_append, total_cons, pays.forLoop hword, pays.delimiter hleft,
      pays.delimiter hone, pays.delimiter htwo, pays.delimiter hright, Tree.total, slotTotal,
      allTotal, pays.simple hi, pays.level he, pays.simple ha, pays.block hb]
    abel
  | _, _, _, .doLoop hword hagain hsemicolon hb he => by
    simp only [total_append, total_cons, total_nil, ← pays.doLoop hword hagain,
      pays.delimiter hsemicolon, Tree.total, slotTotal, pays.block hb, pays.condition he]
    abel
  | _, _, _, .switch hword hleft hright he harms => by
    simp only [total_append, total_cons, total_nil, pays.switch hword, pays.delimiter hleft,
      pays.delimiter hright, Tree.total, slotTotal, pays.condition he, pays.arms harms]
    abel
  | _, _, _, .block hb => pays.block hb
  | _, _, _, .empty hsemicolon => by
    rw [total_cons, total_nil, add_zero, pays.delimiter hsemicolon, Tree.total, pays.braces.2]
  | _, _, _, .simple hsemicolon h => by
    simp only [total_append, total_cons, total_nil, pays.delimiter hsemicolon, pays.simple h]
    abel

theorem block (pays : Pays price worth) : ∀ {tokens : List Token} {t : Tree} {levels : Nat},
    Block tokens t levels → t.total worth = total price tokens
  | _, _, _, .mk hleft hright h => by
    rw [pays.enclosed _ hleft hright, Tree.total, pays.braces.1, zero_add]
    exact pays.statements h

theorem statements (pays : Pays price worth) :
    ∀ {tokens : List Token} {ts : List Tree} {levels : Nat},
    Statements tokens ts levels → allTotal worth ts = total price tokens
  | _, _, _, .nil => rfl
  | _, _, _, .cons first others => by
    rw [total_append, ← pays.statement first, ← pays.statements others, allTotal]

theorem arms (pays : Pays price worth) : ∀ {tokens : List Token} {ts : List Tree} {levels : Nat},
    Arms tokens ts levels → allTotal worth ts = total price tokens
  | _, _, _, .nil => rfl
  | _, _, _, .caseArm hword hcolon he body others => by
    simp only [total_append, total_cons, pays.caseArm hword, pays.delimiter hcolon, Tree.total,
      slotTotal, allTotal, pays.braces.1, pays.level he, pays.statements body, pays.arms others]
  | _, _, _, .defaultArm hword hcolon body others => by
    simp only [total_append, total_cons, pays.defaultArm hword, pays.delimiter hcolon, Tree.total,
      slotTotal, allTotal, pays.braces.1, pays.statements body, pays.arms others]

end

end Pays

end Syntax

end Quadrupler
