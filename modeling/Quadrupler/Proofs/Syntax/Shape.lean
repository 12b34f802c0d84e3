import Quadrupler.Proofs.Syntax.Program
import Quadrupler.Proofs.Tree.Shape
set_option autoImplicit false

/-!
# What is read has the shape of a program

The tree of every derivation has the shape of a program, by induction over the derivation.
-/

namespace Quadrupler

namespace Syntax

open Grammar Quadrupler.Tree

/-! ## Expressions -/

mutual

theorem isExpression_of_operand : ∀ {tokens : List Token} {t : Tree} {levels : Nat},
    Grammar.Operand tokens t levels → t.IsExpression
  | _, _, _, .number _ => .number
  | _, _, _, .identifier _ => .identifier
  | _, _, _, .enclosed _ _ h => isExpression_of_level h

theorem isExpression_of_level : ∀ {n : Nat} {tokens : List Token} {t : Tree} {levels : Nat},
    Level n tokens t levels → t.IsExpression
  | _, _, _, _, .operand h => isExpression_of_operand h
  | _, _, _, _, .chain h => isExpression_of_chain h

theorem isExpression_of_chain : ∀ {n k : Nat} {tokens : List Token} {t : Tree} {levels : Nat},
    Chain n k tokens t levels → t.IsExpression
  | _, _, _, _, _, .single h => isExpression_of_level h
  | _, _, _, _, _, .more left _ _ right =>
    .binary (isExpression_of_chain left) (isExpression_of_level right)

end

theorem isExpression_of_condition {tokens : List Token} {t : Tree} {levels : Nat}
    (h : Condition tokens t levels) : t.IsExpression := by
  cases h with
  | mk _ _ h => exact isExpression_of_level h

/-! ## Statements -/

theorem shaped_of_simple {tokens : List Token} {t : Tree} {levels : Nat}
    (h : Simple tokens t levels) : t.Solid ∧ Shaped .statement t := by
  cases h with
  | assign _ _ h => exact ⟨⟨nofun, rfl⟩, .assign (isExpression_of_level h)⟩
  | step _ _ => exact ⟨⟨nofun, rfl⟩, .step⟩
  | expression h =>
    have he := isExpression_of_level h
    exact ⟨he.solid, .expression he⟩

theorem solid_of_block {tokens : List Token} {t : Tree} {levels : Nat}
    (h : Block tokens t levels) : t.Solid := by
  cases h
  exact ⟨nofun, rfl⟩

mutual

theorem shaped_of_statement : ∀ {tokens : List Token} {t : Tree} {levels : Nat},
    Statement tokens t levels → Shaped .statement t
  | _, _, _, .returning _ _ he => .returning (isExpression_of_level he)
  | _, _, _, .ifThen _ he hb =>
    .ifThen (isExpression_of_condition he) (solid_of_block hb) (shaped_of_block hb)
  | _, _, _, .ifElse _ _ he hb ha =>
    .ifElse (isExpression_of_condition he) (solid_of_block hb) (shaped_of_block hb)
      (solid_of_block ha) (shaped_of_block ha)
  | _, _, _, .whileLoop _ he hb =>
    .whileLoop (isExpression_of_condition he) (solid_of_block hb) (shaped_of_block hb)
  | _, _, _, .forLoop _ _ _ _ _ hi he ha hb =>
    .forLoop (isExpression_of_level he) (solid_of_block hb) (shaped_of_block hb)
      (shaped_of_simple hi).1 (shaped_of_simple hi).2 (shaped_of_simple ha).1
      (shaped_of_simple ha).2
  | _, _, _, .doLoop _ _ _ hb he =>
    .doLoop (isExpression_of_condition he) (solid_of_block hb) (shaped_of_block hb)
  | _, _, _, .switch _ _ _ he harms =>
    .switch (isExpression_of_condition he) (shaped_of_arms harms)
  | _, _, _, .block hb => shaped_of_block hb
  | _, _, _, .empty _ => .empty
  | _, _, _, .simple _ h => (shaped_of_simple h).2

theorem shaped_of_block : ∀ {tokens : List Token} {t : Tree} {levels : Nat},
    Block tokens t levels → Shaped .statement t
  | _, _, _, .mk _ _ h => .block (shaped_of_statements h)

theorem shaped_of_statements : ∀ {tokens : List Token} {ts : List Tree} {levels : Nat},
    Statements tokens ts levels → ∀ t ∈ ts, Shaped .statement t
  | _, _, _, .nil => nofun
  | _, _, _, .cons first others =>
    List.forall_mem_cons.mpr ⟨shaped_of_statement first, shaped_of_statements others⟩

theorem shaped_of_arms : ∀ {tokens : List Token} {ts : List Tree} {levels : Nat},
    Arms tokens ts levels → ∀ t ∈ ts, Shaped .arm t
  | _, _, _, .nil => nofun
  | _, _, _, .caseArm _ _ he body others =>
    List.forall_mem_cons.mpr
      ⟨.caseArm (isExpression_of_level he) ⟨nofun, rfl⟩ (.block (shaped_of_statements body)),
        shaped_of_arms others⟩
  | _, _, _, .defaultArm _ _ body others =>
    List.forall_mem_cons.mpr
      ⟨.defaultArm ⟨nofun, rfl⟩ (.block (shaped_of_statements body)), shaped_of_arms others⟩

end

theorem shaped_of_program {tokens : List Token} {t : Tree} {levels : Nat}
    (h : Program tokens t levels) : Shaped .statement t := by
  obtain ⟨hts⟩ := h
  rename_i ts
  cases hrow : row .separator ts with
  | none => exact .block nofun
  | some u => exact shaped_row (.inl rfl) (shaped_of_statements hts) hrow

end Syntax

theorem shaped_of_parseTokens {tokens : List Token} {t : Tree} (h : parseTokens tokens = .ok t) :
    t.Shaped .statement := by
  obtain ⟨levels, _, derived⟩ := exists_program_of_parseTokens h
  exact Syntax.shaped_of_program derived

end Quadrupler
