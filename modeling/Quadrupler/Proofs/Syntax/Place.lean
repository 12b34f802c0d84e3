import Quadrupler.Proofs.Syntax.Program
import Quadrupler.Proofs.Token.Join
import Quadrupler.Tree.Normal
set_option autoImplicit false

/-!
# Reading does not look at places

From tokens that have been moved, a step reads the same tree but for the places in it, or
gets stuck before the same token with the same expectation.
-/

namespace Quadrupler

namespace Tree

theorem unplacedSlot_eq_map (t : Option Tree) : unplacedSlot t = t.map unplaced := by
  cases t with
  | none => rfl
  | some t => rfl

theorem unplacedAll_eq_map (ts : List Tree) : unplacedAll ts = ts.map unplaced := by
  induction ts with
  | nil => rfl
  | cons t ts ih => rw [unplacedAll, ih, List.map_cons]

theorem unplaced_mk (kind : Kind) (p : Location) (left right : Option Tree) (ss : List Tree) :
    unplaced ⟨kind, p, left, right, ss⟩ =
      ⟨kind, .start, left.map unplaced, right.map unplaced, ss.map unplaced⟩ := by
  rw [unplaced, unplacedSlot_eq_map, unplacedSlot_eq_map, unplacedAll_eq_map]

theorem row_map_unplaced (kind : Kind) (ts : List Tree) :
    row kind (ts.map unplaced) = (row kind ts).map unplaced := by
  cases ts with
  | nil => rfl
  | cons first others =>
    rw [List.map_cons, row, row, Option.map_some]
    congr 1
    induction others generalizing first with
    | nil => rfl
    | cons next others ih =>
      rw [List.map_cons, List.foldl_cons, List.foldl_cons, ← ih]
      obtain ⟨_, _, _, _, _⟩ := next
      rfl

end Tree

namespace Syntax

variable {α β : Type} {f : α → α} {g : β → β} {free : Nat}

/-- What a step gives, without places. -/
def forget (f : α → α) : Except Stuck (α × List Token) → Except Stuck (α × List Token)
  | .ok (x, rest) => .ok (f x, rest.map Token.unplaced)
  | .error stuck => .error { stuck with rest := stuck.rest.map Token.unplaced }

/-- Without places, the second step reads what the first one reads. -/
def Blind (f : α → α) (step step' : Step α) : Prop :=
  ∀ tokens, step' (tokens.map Token.unplaced) = forget f (step tokens)

theorem bind_eq_forget {x x' : Except Stuck (α × List Token)}
    {k k' : α × List Token → Except Stuck (β × List Token)} (first : x' = forget f x)
    (next : ∀ a rest, k' (f a, rest.map Token.unplaced) = forget g (k (a, rest))) :
    x' >>= k' = forget g (x >>= k) := by
  subst first
  cases x with
  | error stuck => rfl
  | ok read => exact next read.1 read.2

theorem begins_map (kind : TokenKind) (text : String) (tokens : List Token) :
    begins kind text (tokens.map Token.unplaced) = begins kind text tokens := by
  cases tokens with
  | nil => rfl
  | cons token tokens => rfl

theorem expect_bind_eq_forget {kind : TokenKind} {text : String} {tokens : List Token}
    {k k' : List Token → Except Stuck (β × List Token)}
    (next : ∀ rest, k' (rest.map Token.unplaced) = forget g (k rest)) :
    expect free kind text (tokens.map Token.unplaced) >>= k' =
      forget g (expect free kind text tokens >>= k) := by
  unfold expect
  rw [begins_map]
  split
  · rw [← List.map_tail]
    exact next _
  · rfl

theorem readMany_blind {stop : List Token → Bool} {step : Step α}
    (stops : ∀ tokens, stop (tokens.map Token.unplaced) = stop tokens) (h : Blind f step step)
    (bound : Nat) : Blind (List.map f) (readMany stop step bound) (readMany stop step bound) := by
  induction bound with
  | zero => exact fun _ => rfl
  | succ bound ih =>
    intro tokens
    rw [readMany, readMany, stops]
    split
    · rfl
    · refine bind_eq_forget (h tokens) fun x rest => ?_
      exact bind_eq_forget (ih rest) fun xs rest => rfl

theorem readUntil_blind {stop : List Token → Bool} {step : Step α}
    (stops : ∀ tokens, stop (tokens.map Token.unplaced) = stop tokens) (h : Blind f step step) :
    Blind (List.map f) (readUntil stop step) (readUntil stop step) := by
  intro tokens
  have stops' : ∀ tokens : List Token,
      ((tokens.map Token.unplaced).isEmpty || stop (tokens.map Token.unplaced)) =
        (tokens.isEmpty || stop tokens) := by
    intro tokens
    rw [List.isEmpty_map, stops]
  rw [readUntil, readUntil, List.length_map]
  exact readMany_blind stops' h _ tokens

/-! ## Expressions -/

theorem operatorOf_map (precedence : Nat) (tokens : List Token) :
    operatorOf precedence (tokens.map Token.unplaced) =
      (operatorOf precedence tokens).map fun (op, _, rest) =>
        (op, .start, rest.map Token.unplaced) := by
  cases tokens with
  | nil => rfl
  | cons token rest =>
    simp only [List.map_cons, operatorOf, Token.unplaced]
    split
    · split
      · split
        · rfl
        · rfl
      · rfl
    · rfl

theorem climb_blind {operand : Step Tree} {continued : Nat → Tree → Step Tree}
    (first : Blind Tree.unplaced operand operand)
    (next : ∀ n left, Blind Tree.unplaced (continued n left) (continued n left.unplaced))
    (n : Nat) : Blind Tree.unplaced (climb operand continued n) (climb operand continued n) := by
  induction n with
  | zero => exact first
  | succ n ih => exact fun tokens => bind_eq_forget (ih tokens) (next n)

theorem operand_blind
    (inner : ∀ m, m < free → Blind Tree.unplaced (expression m) (expression m)) :
    Blind Tree.unplaced (operand free) (operand free) := by
  intro tokens
  cases tokens with
  | nil =>
    rw [List.map_nil, operand]
    rfl
  | cons token rest =>
    obtain ⟨kind, text, p⟩ := token
    rw [operand.eq_def, operand.eq_def]
    cases kind with
    | delimiter =>
      simp only [List.map_cons, Token.unplaced]
      split
      · cases free with
        | zero => rfl
        | succ free =>
          refine bind_eq_forget (inner free (Nat.lt_succ_self _) rest) fun t rest => ?_
          exact expect_bind_eq_forget fun rest => rfl
      · rfl
    | _ => rfl

theorem chain_blind (operands : ∀ m, m < free → Blind Tree.unplaced (operand m) (operand m))
    (n : Nat) (left : Tree) :
    Blind Tree.unplaced (chain free n left) (chain free n left.unplaced) := by
  induction free generalizing n left with
  | zero =>
    intro tokens
    rw [chain, chain, operatorOf_map]
    cases operatorOf (precedenceLevels - n) tokens with
    | none => rfl
    | some found => rfl
  | succ free ih =>
    intro tokens
    rw [chain, chain, operatorOf_map]
    cases operatorOf (precedenceLevels - n) tokens with
    | none => rfl
    | some found =>
      obtain ⟨op, p, rest⟩ := found
      have chains := ih fun m hm => operands m (Nat.lt_succ_of_lt hm)
      have behind := climb_blind (operands free (Nat.lt_succ_self _)) chains n
      refine bind_eq_forget (behind rest) fun right rest => ?_
      exact chains n (.binary op left right p) rest

theorem expression_blind (free : Nat) :
    Blind Tree.unplaced (operand free) (operand free) ∧
      Blind Tree.unplaced (expression free) (expression free) := by
  induction free using Nat.strongRecOn with
  | ind free ih =>
    have operands : Blind Tree.unplaced (operand free) (operand free) :=
      operand_blind fun m hm => (ih m hm).2
    exact ⟨operands, climb_blind operands (chain_blind fun m hm => (ih m hm).1) precedenceLevels⟩

/-! ## Statements -/

theorem condition_blind : Blind Tree.unplaced (condition free) (condition free) := by
  intro tokens
  refine expect_bind_eq_forget fun rest => ?_
  refine bind_eq_forget ((expression_blind free).2 rest) fun t rest => ?_
  exact expect_bind_eq_forget fun rest => rfl

theorem simple_blind : Blind Tree.unplaced (simple free) (simple free) := by
  intro tokens
  have expressions := (expression_blind free).2
  match tokens with
  | [] => exact expressions []
  | [token] => exact expressions [token]
  | token :: next :: rest =>
    simp only [List.map_cons, simple, Token.unplaced]
    split
    · split
      · refine bind_eq_forget (expressions rest) fun t rest => rfl
      · split
        · rfl
        · exact expressions (token :: next :: rest)
    · exact expressions (token :: next :: rest)

theorem statementWith_blind {block : Step Tree} {arms : Step (List Tree)}
    (blocks : Blind Tree.unplaced block block)
    (switches : Blind (List.map Tree.unplaced) arms arms) :
    Blind Tree.unplaced (statementWith free block arms) (statementWith free block arms) := by
  intro tokens
  have expressions := (expression_blind free).2
  cases tokens with
  | nil => rfl
  | cons token rest =>
    simp only [List.map_cons, statementWith, Token.unplaced]
    split
    · refine bind_eq_forget (expressions rest) fun t rest => ?_
      exact expect_bind_eq_forget fun rest => rfl
    · refine bind_eq_forget (condition_blind rest) fun t rest => ?_
      refine bind_eq_forget (blocks rest) fun b rest => ?_
      cases rest with
      | nil => rfl
      | cons other after =>
        have same : other.unplaced.is .keyword "else" = other.is .keyword "else" := rfl
        simp only [List.map_cons, same]
        split
        · exact bind_eq_forget (blocks after) fun a rest => rfl
        · rfl
    · refine bind_eq_forget (condition_blind rest) fun t rest => ?_
      exact bind_eq_forget (blocks rest) fun b rest => rfl
    · refine expect_bind_eq_forget fun rest => ?_
      refine bind_eq_forget (simple_blind rest) fun first rest => ?_
      refine expect_bind_eq_forget fun rest => ?_
      refine bind_eq_forget (expressions rest) fun t rest => expect_bind_eq_forget fun rest => ?_
      refine bind_eq_forget (simple_blind rest) fun advance rest =>
        expect_bind_eq_forget fun rest => ?_
      exact bind_eq_forget (blocks rest) fun b rest => rfl
    · refine bind_eq_forget (blocks rest) fun b rest => expect_bind_eq_forget fun rest => ?_
      refine bind_eq_forget (condition_blind rest) fun t rest => ?_
      exact expect_bind_eq_forget fun rest => rfl
    · refine bind_eq_forget (condition_blind rest) fun t rest => ?_
      exact bind_eq_forget (switches rest) fun ts rest => by
        simp [forget, Tree.unplaced_mk]
    · rfl
    · rfl
    · exact blocks (token :: rest)
    · refine bind_eq_forget (simple_blind (token :: rest)) fun t rest => ?_
      exact expect_bind_eq_forget fun rest => rfl

theorem closes_map (tokens : List Token) : closes (tokens.map Token.unplaced) = closes tokens :=
  begins_map _ _ tokens

theorem closesArm_map (tokens : List Token) :
    closesArm (tokens.map Token.unplaced) = closesArm tokens := by
  rw [closesArm, closesArm, begins_map, begins_map, closes_map]

theorem arm_blind {step : Step Tree} (h : Blind Tree.unplaced step step) :
    Blind Tree.unplaced (arm free step) (arm free step) := by
  intro tokens
  have bodies := readUntil_blind closesArm_map h
  cases tokens with
  | nil => rfl
  | cons token rest =>
    have same (text : String) : token.unplaced.is .keyword text = token.is .keyword text := rfl
    simp only [List.map_cons, arm, same]
    split
    · refine bind_eq_forget ((expression_blind free).2 rest) fun t rest => ?_
      refine expect_bind_eq_forget fun rest => bind_eq_forget (bodies rest) fun ts rest => ?_
      simp [forget, Tree.unplaced_mk, Tree.block, Token.unplaced]
    · split
      · refine expect_bind_eq_forget fun rest => bind_eq_forget (bodies rest) fun ts rest => ?_
        simp [forget, Tree.unplaced_mk, Tree.block, Token.unplaced]
      · rfl

theorem block_arms_blind (free : Nat) :
    Blind Tree.unplaced (block free) (block free) ∧
      Blind (List.map Tree.unplaced) (arms free) (arms free) := by
  induction free with
  | zero => exact ⟨fun tokens => rfl, fun tokens => rfl⟩
  | succ free ih =>
    have statements : Blind Tree.unplaced (statement free) (statement free) :=
      statementWith_blind ih.1 ih.2
    refine ⟨fun tokens => ?_, fun tokens => ?_⟩
    · cases tokens with
      | nil => rfl
      | cons brace rest =>
        have same : brace.unplaced.is .delimiter openBrace = brace.is .delimiter openBrace := rfl
        simp only [List.map_cons, block, same]
        split
        · refine bind_eq_forget (readUntil_blind closes_map statements rest) fun ts rest => ?_
          refine expect_bind_eq_forget fun rest => ?_
          simp [forget, Tree.unplaced_mk, Tree.block, Token.unplaced]
        · rfl
    · refine expect_bind_eq_forget fun rest => ?_
      refine bind_eq_forget (readUntil_blind closes_map (arm_blind statements) rest)
        fun ts rest => ?_
      exact expect_bind_eq_forget fun rest => rfl

theorem program_blind (here : Location) (free : Nat) :
    Blind Tree.unplaced (program here free) (program .start free) := by
  intro tokens
  have statements : Blind Tree.unplaced (statement free) (statement free) :=
    statementWith_blind (block_arms_blind free).1 (block_arms_blind free).2
  refine bind_eq_forget (readUntil_blind (fun _ => rfl) statements tokens) fun ts rest => ?_
  have tree : (Tree.row .separator (ts.map Tree.unplaced)).getD (.block [] .start) =
      ((Tree.row .separator ts).getD (.block [] here)).unplaced := by
    rw [Tree.row_map_unplaced]
    cases Tree.row .separator ts with
    | none => rfl
    | some t => rfl
  simp only [forget, tree]

end Syntax

open Syntax

/-- Tokens that only stand elsewhere are read as the same tree but for its places. -/
theorem exists_parseTokens_of_unplaced {tokens tokens' : List Token} {t : Tree}
    (same : (Token.significant tokens').map Token.unplaced =
      (Token.significant tokens).map Token.unplaced)
    (h : parseTokens tokens = .ok t) :
    ∃ t', parseTokens tokens' = .ok t' ∧ t'.unplaced = t.unplaced := by
  obtain ⟨rest, read⟩ := parseTokens_eq_ok_iff_program.mp h
  have moved := program_blind (Cursor.ofTokens tokens').location nestingLimit
    (Token.significant tokens')
  rw [same, program_blind (Cursor.ofTokens tokens).location, read] at moved
  cases read' : program (Cursor.ofTokens tokens').location nestingLimit
      (Token.significant tokens') with
  | error stuck =>
    rw [read'] at moved
    cases moved
  | ok result =>
    obtain ⟨t', rest'⟩ := result
    rw [read'] at moved
    injection moved with moved
    exact ⟨t', parseTokens_eq_ok_iff_program.mpr ⟨rest', read'⟩, (congrArg Prod.fst moved).symm⟩

end Quadrupler
