import Quadrupler.Proofs.Syntax.Depth
set_option autoImplicit false

/-!
# Programs that are deeper than the limit

A chain of operators closes its levels when it ends, so the chain that goes on from it on the
next, looser level of precedence has all levels free again.  Already two chains pass the
limit; chains on all four levels, continued around parentheses, go as deep as the bounds on
the trees of programs allow.
-/

namespace Quadrupler

namespace Syntax

open Grammar Quadrupler.Tree

/-! ## Chains of operators -/

def nameToken : Token := ⟨.identifier, "a", .start⟩

def nameTree : Tree := .identifier "a" .start

/-- So many operators, each with a name behind it. -/
def operatorTokens (op : BinaryOp) (k : Nat) : List Token :=
  (List.replicate k [⟨.operator, op.symbol, .start⟩, nameToken]).flatten

/-- The tree continued by so many operators. -/
def continued (op : BinaryOp) : Nat → Tree → Tree
  | 0, t => t
  | k + 1, t => .binary op (continued op k t) nameTree .start

theorem level_name (n : Nat) : Level n [nameToken] nameTree 0 := by
  induction n with
  | zero => exact .operand (.identifier rfl)
  | succ n ih => exact .chain (.single ih)

theorem chain_continued {n m : Nat} {op : BinaryOp} {tokens : List Token} {t : Tree}
    (h : Level n tokens t m) (hop : op.precedence = precedenceLevels - n) (k : Nat) :
    Chain n k (tokens ++ operatorTokens op k) (continued op k t) (max m k) := by
  induction k with
  | zero => simpa [operatorTokens, continued] using Chain.single h
  | succ k ih =>
    have tokens_eq : operatorTokens op (k + 1) =
        operatorTokens op k ++ [⟨.operator, op.symbol, .start⟩, nameToken] := by
      rw [operatorTokens, List.replicate_succ', List.flatten_append]
      rfl
    have levels_eq : max m (k + 1) = max (max m k) (k + 1 + 0) := by omega
    rw [tokens_eq, ← List.append_assoc, levels_eq]
    exact .more ih rfl (mem_signs_iff.mpr ⟨BinaryOp.ofSymbol?_symbol op, hop⟩) (level_name n)

theorem level_continued {n m : Nat} {tokens : List Token} {t : Tree} (op : BinaryOp)
    (h : Level n tokens t m) (hop : op.precedence = precedenceLevels - n) (k : Nat) :
    Level (n + 1) (tokens ++ operatorTokens op k) (continued op k t) (max m k) :=
  .chain (chain_continued h hop k)

theorem way_continued {t : Tree} {way : List (Kind × Turn)} (op : BinaryOp) (h : Way t way)
    (k : Nat) :
    ∃ way', Way (continued op k t) way' ∧ nesting way' = k + nesting way := by
  induction k with
  | zero => exact ⟨way, h, (Nat.zero_add _).symm⟩
  | succ k ih =>
    obtain ⟨way', hway', count⟩ := ih
    refine ⟨(.binary op, .left) :: way', .left rfl hway', ?_⟩
    have step : nesting ((.binary op, .left) :: way') = 1 + nesting way' := rfl
    omega

/-- So many operators on each level of precedence, the tightest first. -/
def allOperatorTokens (k : Nat) : List Token :=
  operatorTokens .pow k ++
    (operatorTokens .mul k ++ (operatorTokens .add k ++ operatorTokens .lt k))

def continuedAll (k : Nat) (t : Tree) : Tree :=
  continued .lt k (continued .add k (continued .mul k (continued .pow k t)))

theorem level_continuedAll {m : Nat} {tokens : List Token} {t : Tree}
    (h : Grammar.Operand tokens t m) (k : Nat) :
    Level precedenceLevels (tokens ++ allOperatorTokens k) (continuedAll k t) (max m k) := by
  have powers := level_continued .pow (.operand h) rfl k
  have products := level_continued .mul powers rfl k
  have sums := level_continued .add products rfl k
  have comparisons := level_continued .lt sums rfl k
  have levels_eq : max (max (max (max m k) k) k) k = max m k := by omega
  rw [levels_eq] at comparisons
  rw [allOperatorTokens, ← List.append_assoc, ← List.append_assoc, ← List.append_assoc]
  exact comparisons

theorem way_continuedAll {t : Tree} {way : List (Kind × Turn)} (h : Way t way) (k : Nat) :
    ∃ way', Way (continuedAll k t) way' ∧ nesting way' = 4 * k + nesting way := by
  obtain ⟨way₁, h₁, count₁⟩ := way_continued .pow h k
  obtain ⟨way₂, h₂, count₂⟩ := way_continued .mul h₁ k
  obtain ⟨way₃, h₃, count₃⟩ := way_continued .add h₂ k
  obtain ⟨way₄, h₄, count₄⟩ := way_continued .lt h₃ k
  exact ⟨way₄, h₄, by omega⟩

/-! ## The deepest expressions -/

/-- An expression that goes as deep as so many levels allow. -/
def towerTokens : Nat → List Token
  | 0 => [nameToken]
  | free + 1 =>
    ⟨.delimiter, "(", .start⟩ :: towerTokens free ++ [⟨.delimiter, ")", .start⟩] ++
      allOperatorTokens (free + 1)

def towerTree : Nat → Tree
  | 0 => nameTree
  | free + 1 => continuedAll (free + 1) (towerTree free)

theorem level_tower (free : Nat) :
    Level precedenceLevels (towerTokens free) (towerTree free) free := by
  induction free with
  | zero => exact level_name _
  | succ free ih =>
    have enclosed : Grammar.Operand (⟨.delimiter, "(", .start⟩ :: towerTokens free ++
        [⟨.delimiter, ")", .start⟩]) (towerTree free) (free + 1) :=
      .enclosed rfl rfl ih
    have whole := level_continuedAll enclosed (free + 1)
    rw [Nat.max_self] at whole
    exact whole

theorem way_tower (free : Nat) :
    ∃ way, Way (towerTree free) way ∧ nesting way = deepest free := by
  induction free with
  | zero => exact ⟨_, .stop rfl, rfl⟩
  | succ free ih =>
    obtain ⟨way, h, count⟩ := ih
    obtain ⟨way', h', count'⟩ := way_continuedAll h (free + 1)
    exact ⟨way', h', by rw [count', count, deepest_succ]⟩

/-! ## Programs of one statement -/

theorem program_of_statement {tokens : List Token} {t : Tree} {levels : Nat}
    (h : Statement tokens t levels) : Program tokens t levels := by
  have program := Program.mk (.cons h .nil)
  rw [List.append_nil, Nat.max_zero] at program
  exact program

/-- A switch without arms. -/
def switchTokens (tokens : List Token) : List Token :=
  ⟨.keyword, "switch", .start⟩ ::
    (⟨.delimiter, "(", .start⟩ :: tokens ++ [⟨.delimiter, ")", .start⟩]) ++
    ⟨.delimiter, openBrace, .start⟩ :: [] ++ [⟨.delimiter, closeBrace, .start⟩]

def switchTree (t : Tree) : Tree := { kind := .switch, location := .start, left := some t }

theorem program_switch {tokens : List Token} {t : Tree} {levels : Nat}
    (h : Expression tokens t levels) :
    Program (switchTokens tokens) (switchTree t) (max levels 1) :=
  program_of_statement (.switch rfl rfl rfl (.mk rfl rfl h) .nil)

/-! ## No comments -/

theorem significant_operatorTokens (op : BinaryOp) (k : Nat) :
    Token.significant (operatorTokens op k) = operatorTokens op k := by
  refine List.filter_eq_self.mpr fun token h => ?_
  obtain ⟨pair, repeated, member⟩ := List.mem_flatten.mp h
  rw [List.eq_of_mem_replicate repeated] at member
  simp only [List.mem_cons, List.not_mem_nil, or_false] at member
  obtain rfl | rfl := member
  · rfl
  · rfl

theorem significant_tower (free : Nat) :
    Token.significant (towerTokens free) = towerTokens free := by
  induction free with
  | zero => rfl
  | succ free ih =>
    have opening : Token.significant [⟨.delimiter, "(", .start⟩] =
        [⟨.delimiter, "(", .start⟩] := rfl
    have closing : Token.significant [⟨.delimiter, ")", .start⟩] =
        [⟨.delimiter, ")", .start⟩] := rfl
    rw [towerTokens, ← List.singleton_append]
    simp only [allOperatorTokens, List.filter_append, significant_operatorTokens, ih, opening,
      closing]

theorem significant_switchTokens (tokens : List Token) :
    Token.significant (switchTokens tokens) = switchTokens (Token.significant tokens) := by
  simp only [switchTokens, List.cons_append, List.append_assoc, List.nil_append]
  rw [Token.significant, List.filter_cons_of_pos rfl, List.filter_cons_of_pos rfl,
    List.filter_append]
  rfl

end Syntax

open Syntax

/-- The levels bound the nodes on a way that it does not leave through their first slot.  The
others are what is missing from a bound on all nodes: on each way these are within the limit if
and only if the others leave room for it.  They are on all ways if and only if the height of the
tree is. -/
theorem nesting_of_parseTokens {tokens : List Token} {t : Tree}
    (h : parseTokens tokens = .ok t) :
    (∀ way, t.Way way →
      Tree.guarded way ≤ nestingLimit ∧
      (Tree.nesting way ≤ nestingLimit ↔
        Tree.released way ≤ nestingLimit - Tree.guarded way) ∧
      Tree.nesting way ≤ 2 * nestingLimit * (nestingLimit + 1) + 1) ∧
    ((∀ way, t.Way way → Tree.nesting way ≤ nestingLimit) ↔
      t.height Tree.Weight.nesting false ≤ nestingLimit) := by
  refine ⟨?_, Tree.nesting_le_iff_height⟩
  intro way hway
  obtain ⟨guarded, nesting⟩ := counts_of_way h hway
  have sum := Tree.nesting_eq way
  refine ⟨guarded, ?_, nesting⟩
  omega

/-- A product of powers as what a switch decides on is within the limit on all ways. -/
theorem nesting_of_parseTokens_switch :
    let tokens := switchTokens ([nameToken] ++ operatorTokens .pow 2 ++ operatorTokens .mul 1)
    ∃ t, parseTokens tokens = .ok t ∧ ∀ way, t.Way way → Tree.nesting way ≤ nestingLimit := by
  intro tokens
  have read : parseTokens tokens = .ok _ := (parseTokens_eq_settle tokens).trans rfl
  exact ⟨_, read, (nesting_of_parseTokens read).2.mpr (by decide)⟩

/-- The bound on the number of all nodes on a way is reached. -/
theorem exists_way_deepest :
    ∃ (tokens : List Token) (t : Tree) (way : List (Tree.Kind × Tree.Turn)),
      parseTokens tokens = .ok t ∧ t.Way way ∧
        Tree.nesting way = 2 * nestingLimit * (nestingLimit + 1) + 1 := by
  obtain ⟨way, hway, count⟩ := way_tower nestingLimit
  refine ⟨switchTokens (towerTokens nestingLimit), switchTree (towerTree nestingLimit),
    (.switch, .left) :: way, ?_, .left rfl hway, ?_⟩
  · refine parseTokens_of_program (Nat.le_refl _) ?_
    rw [significant_switchTokens, significant_tower]
    exact program_switch (level_tower nestingLimit)
  · have step : Tree.nesting ((.switch, .left) :: way) = 1 + Tree.nesting way := rfl
    rw [step, count, deepest]
    omega

/-- Two chains are enough to pass the limit: one of as many powers as there are levels, which
is the first operand of a product. -/
theorem nesting_exceeds_limit :
    ∃ (t : Tree) (way : List (Tree.Kind × Tree.Turn)),
      parseTokens ([nameToken] ++ operatorTokens .pow 256 ++ operatorTokens .mul 1 ++
        [⟨.delimiter, ";", .start⟩]) = .ok t ∧ t.Way way ∧ nestingLimit < Tree.nesting way := by
  have powers := level_continued .pow (level_name 0) rfl 256
  have products := level_continued .mul powers rfl 1
  have expression : Grammar.Expression _ _ _ := .chain (.single (.chain (.single products)))
  have leaf : nameTree.Way [(.identifier "a", .stop)] := .stop rfl
  obtain ⟨way, hway, count⟩ := way_continued .pow leaf 256
  obtain ⟨way', hway', count'⟩ := way_continued .mul hway 1
  refine ⟨_, way', parseTokens_of_program (Nat.le_refl nestingLimit) ?_, hway', ?_⟩
  · simp only [List.filter_append, significant_operatorTokens]
    exact program_of_statement (.simple rfl (.expression expression))
  · have leafCount : Tree.nesting [(.identifier "a", .stop)] = 0 := rfl
    rw [count', count, leafCount, nestingLimit]
    omega

end Quadrupler
