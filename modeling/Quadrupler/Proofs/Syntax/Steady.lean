import Quadrupler.Proofs.Syntax.Expression
import Quadrupler.Syntax.Statement
set_option autoImplicit false

/-!
# Steps go forward

A step takes tokens from the front only, and where it gets stuck it has closed no level that it
did not open.  `Proceeds` says so of one result of a step, and every step is steady: all its
results proceed.
-/

namespace Quadrupler

namespace Syntax

variable {α β : Type} {free : Nat} {tokens : List Token}

/-! ## Results of steps -/

/-- What the result leaves ends the tokens.  If it is stuck, no more levels are free than there
were. -/
def Proceeds (free : Nat) (tokens : List Token) : Except Stuck (α × List Token) → Prop
  | .ok (_, rest) => rest <:+ tokens
  | .error stuck => stuck.rest <:+ tokens ∧ stuck.free ≤ free

namespace Proceeds

variable {result : Except Stuck (α × List Token)}

theorem ok (x : α) (tokens : List Token) : Proceeds free tokens (.ok (x, tokens)) :=
  List.suffix_refl tokens

/-- The step is stuck before the first token. -/
theorem here (expected : Expectation) (tokens : List Token) :
    Proceeds free tokens (.error ⟨expected, tokens, free⟩ : Except Stuck (α × List Token)) :=
  ⟨List.suffix_refl tokens, Nat.le_refl free⟩

/-- More tokens stand before, and more levels are free. -/
theorem mono {inner : Nat} {rest : List Token} (h : Proceeds inner rest result)
    (levels : inner ≤ free) (suffix : rest <:+ tokens) : Proceeds free tokens result := by
  cases result with
  | error stuck =>
    obtain ⟨left, fewer⟩ := h
    exact ⟨left.trans suffix, Nat.le_trans fewer levels⟩
  | ok read => exact List.IsSuffix.trans h suffix

theorem cons (token : Token) (h : Proceeds free tokens result) :
    Proceeds free (token :: tokens) result :=
  h.mono (Nat.le_refl free) (List.suffix_cons token tokens)

theorem bind {k : α × List Token → Except Stuck (β × List Token)}
    (first : Proceeds free tokens result) (next : ∀ x rest, Proceeds free rest (k (x, rest))) :
    Proceeds free tokens (result >>= k) := by
  cases result with
  | error stuck => exact first
  | ok read => exact (next read.1 read.2).mono (Nat.le_refl free) first

theorem expect_bind {kind : TokenKind} {text : String}
    {k : List Token → Except Stuck (β × List Token)} (next : ∀ rest, Proceeds free rest (k rest))
    (tokens : List Token) :
    Proceeds free tokens (Syntax.expect free kind text tokens >>= k) := by
  unfold Syntax.expect
  split
  · exact (next tokens.tail).mono (Nat.le_refl free) (List.tail_suffix tokens)
  · exact here _ tokens

theorem expect_last {kind : TokenKind} {text : String} (x : β) (tokens : List Token) :
    Proceeds free tokens (Syntax.expect free kind text tokens >>= fun rest => .ok (x, rest)) :=
  expect_bind (fun rest => ok x rest) tokens

end Proceeds

/-- All results of the step proceed. -/
def Steady (free : Nat) (step : Step α) : Prop := ∀ tokens, Proceeds free tokens (step tokens)

theorem readMany_steady {stop : List Token → Bool} {step : Step α} (h : Steady free step)
    (bound : Nat) : Steady free (readMany stop step bound) := by
  induction bound with
  | zero => exact fun tokens => .ok [] tokens
  | succ bound ih =>
    intro tokens
    rw [readMany]
    split
    · exact .ok [] tokens
    · refine (h tokens).bind fun x rest => ?_
      exact (ih rest).bind fun xs rest => .ok (x :: xs) rest

theorem readUntil_steady {stop : List Token → Bool} {step : Step α} (h : Steady free step) :
    Steady free (readUntil stop step) :=
  fun tokens => readMany_steady h tokens.length tokens

/-! ## Expressions -/

theorem climb_steady {operand : Step Tree} {continued : Nat → Tree → Step Tree}
    (first : Steady free operand) (next : ∀ n left, Steady free (continued n left)) (n : Nat) :
    Steady free (climb operand continued n) := by
  induction n with
  | zero => exact first
  | succ n ih => exact fun tokens => (ih tokens).bind (next n)

theorem operand_steady (inner : ∀ m, m < free → Steady m (expression m)) :
    Steady free (operand free) := by
  intro tokens
  cases tokens with
  | nil =>
    rw [operand]
    exact .here _ []
  | cons token rest =>
    rw [operand.eq_def]
    dsimp only
    split
    · exact .cons token (.ok _ rest)
    · exact .cons token (.ok _ rest)
    · split
      · cases free with
        | zero => exact .here _ _
        | succ m =>
          -- The level of the parenthesis is given back with the rest of the tokens.
          refine Proceeds.mono ?_ (Nat.le_succ m) (List.suffix_cons token rest)
          exact (inner m (Nat.lt_succ_self m) rest).bind fun t rest => .expect_last t rest
      · exact .here _ _
    all_goals exact .here _ _

theorem chain_steady (operands : ∀ m, m < free → Steady m (operand m)) (n : Nat) (left : Tree) :
    Steady free (chain free n left) := by
  induction free generalizing n left with
  | zero =>
    intro tokens
    rw [chain]
    split
    · exact .ok left tokens
    · exact .here _ tokens
  | succ free ih =>
    intro tokens
    rw [chain]
    split
    · exact .ok left tokens
    · rename_i op location rest found
      obtain ⟨token, rfl, -⟩ := operatorOf_eq_some_iff.mp found
      have chains := ih fun m hm => operands m (Nat.lt_succ_of_lt hm)
      have behind := climb_steady (operands free (Nat.lt_succ_self _)) chains n
      refine Proceeds.mono ?_ (Nat.le_succ free) (List.suffix_cons token rest)
      exact (behind rest).bind fun right rest => chains n (.binary op left right _) rest

theorem expression_steady (free : Nat) :
    Steady free (operand free) ∧ Steady free (expression free) := by
  induction free using Nat.strongRecOn with
  | ind free ih =>
    have operands : Steady free (operand free) := operand_steady fun m hm => (ih m hm).2
    exact ⟨operands, climb_steady operands (chain_steady fun m hm => (ih m hm).1) precedenceLevels⟩

/-! ## Statements -/

theorem condition_steady : Steady free (condition free) := by
  intro tokens
  refine .expect_bind (fun rest => ?_) tokens
  exact ((expression_steady free).2 rest).bind fun t rest => .expect_last t rest

theorem simple_steady : Steady free (simple free) := by
  have expressions := (expression_steady free).2
  intro tokens
  unfold simple
  split
  · rename_i token next rest
    split
    · dsimp only
      split
      · exact .cons token (.cons next ((expressions rest).bind fun value rest => .ok _ rest))
      · split
        · exact .cons token (.cons next (.ok _ rest))
        · exact expressions _
    · exact expressions _
  · exact expressions _

theorem statementWith_steady {block : Step Tree} {arms : Step (List Tree)}
    (blocks : Steady free block) (switches : Steady free arms) :
    Steady free (statementWith free block arms) := by
  have expressions := (expression_steady free).2
  intro tokens
  cases tokens with
  | nil => exact .here _ []
  | cons token rest =>
    unfold statementWith
    dsimp only
    split
    · apply Proceeds.cons
      exact (expressions rest).bind fun t rest => .expect_last _ rest
    · apply Proceeds.cons
      refine (condition_steady rest).bind fun t rest => (blocks rest).bind fun b rest => ?_
      dsimp only
      split
      · exact .ok _ _
      · rename_i other after
        split
        · exact .cons other ((blocks after).bind fun a rest => .ok _ rest)
        · exact .ok _ _
    · apply Proceeds.cons
      exact (condition_steady rest).bind fun t rest => (blocks rest).bind fun b rest => .ok _ rest
    · apply Proceeds.cons
      refine .expect_bind (fun rest => (simple_steady rest).bind fun first rest => ?_) rest
      refine .expect_bind (fun rest => (expressions rest).bind fun t rest => ?_) rest
      refine .expect_bind (fun rest => (simple_steady rest).bind fun advance rest => ?_) rest
      refine .expect_bind (fun rest => (blocks rest).bind fun b rest => ?_) rest
      exact .ok _ rest
    · apply Proceeds.cons
      refine (blocks rest).bind fun b rest => .expect_bind (fun rest => ?_) rest
      exact (condition_steady rest).bind fun t rest => .expect_last _ rest
    · apply Proceeds.cons
      exact (condition_steady rest).bind fun t rest =>
        (switches rest).bind fun ts rest => .ok _ rest
    · exact .here _ _
    · exact .cons token (.ok _ rest)
    · exact blocks _
    · exact (simple_steady _).bind fun t rest => .expect_last t rest

theorem arm_steady {step : Step Tree} (h : Steady free step) : Steady free (arm free step) := by
  have bodies : Steady free (readUntil closesArm step) := readUntil_steady h
  intro tokens
  cases tokens with
  | nil => exact .here _ []
  | cons token rest =>
    unfold arm
    dsimp only
    split
    · apply Proceeds.cons
      refine ((expression_steady free).2 rest).bind fun t rest => .expect_bind (fun rest => ?_) rest
      exact (bodies rest).bind fun ts rest => .ok _ rest
    · split
      · apply Proceeds.cons
        refine .expect_bind (fun rest => ?_) rest
        exact (bodies rest).bind fun ts rest => .ok _ rest
      · exact .here _ _

theorem braces_steady (free : Nat) : Steady free (block free) ∧ Steady free (arms free) := by
  induction free with
  | zero =>
    refine ⟨fun tokens => ?_, fun tokens => ?_⟩
    · rw [block]
      exact .here _ tokens
    · rw [arms]
      exact .here _ tokens
  | succ free ih =>
    have statements : Steady free (statement free) := statementWith_steady ih.1 ih.2
    refine ⟨fun tokens => ?_, fun tokens => ?_⟩
    · refine Proceeds.mono ?_ (Nat.le_succ free) (List.suffix_refl tokens)
      rw [block.eq_def]
      dsimp only
      split
      · exact .here _ []
      · rename_i brace rest
        split
        · apply Proceeds.cons
          exact (readUntil_steady statements rest).bind fun ts rest => .expect_last _ rest
        · exact .here _ _
    · refine Proceeds.mono ?_ (Nat.le_succ free) (List.suffix_refl tokens)
      rw [arms.eq_def]
      refine .expect_bind (fun rest => ?_) tokens
      exact (readUntil_steady (arm_steady statements) rest).bind fun ts rest => .expect_last ts rest

theorem statement_steady (free : Nat) : Steady free (statement free) :=
  statementWith_steady (braces_steady free).1 (braces_steady free).2

theorem program_steady (here : Location) (free : Nat) : Steady free (program here free) :=
  fun tokens => (readUntil_steady (statement_steady free) tokens).bind fun _ rest => .ok _ rest

end Syntax

end Quadrupler
