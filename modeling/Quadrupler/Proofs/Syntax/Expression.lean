import Quadrupler.Proofs.Syntax.Step
import Quadrupler.Syntax.Expression
import Quadrupler.Syntax.Grammar
set_option autoImplicit false

/-!
# Expressions are read as the grammar derives them

Everything goes by induction on the free levels, and on the levels of precedence within.
What a chain has read so far is part of the statement: with `k` operators behind it, a chain
that started with `free + k` levels has `free` left.
-/

namespace Quadrupler.Syntax

open Grammar

/-- Reads an expression of the `n` tightest levels of precedence. -/
abbrev level (free n : Nat) : Step Tree := climb (operand free) (chain free) n

/-! ## Operators -/

theorem ofSymbol?_eq_some_iff {text : String} {op : BinaryOp} :
    BinaryOp.ofSymbol? text = some op ↔ text = op.symbol := by
  constructor
  · intro found
    simpa [eq_comm] using List.find?_some found
  · rintro rfl
    exact BinaryOp.ofSymbol?_symbol op

/-- The signs of a level of the grammar are the operators of its precedence. -/
theorem mem_signs_iff {n : Nat} {text : String} {op : BinaryOp} :
    (text, op) ∈ signs n ↔
      BinaryOp.ofSymbol? text = some op ∧ op.precedence = precedenceLevels - n := by
  rw [ofSymbol?_eq_some_iff]
  rcases n with _ | _ | _ | _ | n
  all_goals
    cases op <;> simp [signs, BinaryOp.symbol, BinaryOp.precedence, precedenceLevels]

theorem operatorOf_eq_some_iff {precedence : Nat} {tokens rest : List Token} {op : BinaryOp}
    {location : Location} :
    operatorOf precedence tokens = some (op, location, rest) ↔
      ∃ token, tokens = token :: rest ∧ token.kind = .operator ∧
        BinaryOp.ofSymbol? token.text = some op ∧ op.precedence = precedence ∧
        token.location = location := by
  constructor
  · intro h
    cases tokens with
    | nil => simp [operatorOf] at h
    | cons token others =>
      rw [operatorOf] at h
      split at h
      · rename_i hkind
        split at h
        · rename_i found hop
          split at h
          · rename_i hprecedence
            obtain ⟨rfl, rfl, rfl⟩ : op = found ∧ location = token.location ∧ rest = others := by
              simpa [eq_comm] using h
            exact ⟨token, rfl, hkind, hop, hprecedence, rfl⟩
          · simp at h
        · simp at h
      · simp at h
  · rintro ⟨token, rfl, hkind, hop, hprecedence, rfl⟩
    simp [operatorOf, hkind, hop, hprecedence]

theorem precedence_pos (op : BinaryOp) : 0 < op.precedence := by
  cases op <;> decide

/-- The tokens do not begin with an operator of the `n` tightest levels of precedence. -/
def NoOperator (n : Nat) (tokens : List Token) : Prop :=
  ∀ m, m < n → operatorOf (precedenceLevels - m) tokens = none

theorem noOperator_zero (tokens : List Token) : NoOperator 0 tokens :=
  fun _ impossible => absurd impossible (Nat.not_lt_zero _)

theorem NoOperator.succ {n : Nat} {tokens : List Token} (tighter : NoOperator n tokens)
    (h : operatorOf (precedenceLevels - n) tokens = none) : NoOperator (n + 1) tokens := by
  intro m less
  obtain less | rfl := Nat.lt_succ_iff_lt_or_eq.mp less
  · exact tighter m less
  · exact h

theorem NoOperator.mono {m n : Nat} {tokens : List Token} (h : NoOperator n tokens) (le : m ≤ n) :
    NoOperator m tokens :=
  fun k less => h k (Nat.lt_of_lt_of_le less le)

theorem noOperator_of_kind {token : Token} {rest : List Token} (h : token.kind ≠ .operator)
    (n : Nat) : NoOperator n (token :: rest) := by
  intro m _
  simp [operatorOf, h]

/-- An operator is none of a tighter level. -/
theorem noOperator_of_precedence {token : Token} {rest : List Token} {op : BinaryOp} {n : Nat}
    (hop : BinaryOp.ofSymbol? token.text = some op) (hn : op.precedence = precedenceLevels - n) :
    NoOperator n (token :: rest) := by
  intro m less
  have pos := precedence_pos op
  have differ : op.precedence ≠ precedenceLevels - m := by omega
  simp [operatorOf, hop, differ]

/-! ## Soundness -/

/-- The chain goes on from what was read, which leaves it these levels. -/
def ChainSound (free : Nat) : Prop :=
  ∀ {n k m : Nat} {before tokens rest : List Token} {left t : Tree},
    Chain n k before left m → m ≤ free + k → NoOperator n tokens →
    chain free n left tokens = .ok (t, rest) →
    ∃ used k' levels, tokens = used ++ rest ∧ Chain n k' (before ++ used) t levels ∧
      levels ≤ free + k ∧ NoOperator (n + 1) rest

theorem level_sound {free : Nat} (operands : Sound free Grammar.Operand (operand free))
    (chains : ChainSound free) {n : Nat} {tokens rest : List Token} {t : Tree}
    (h : level free n tokens = .ok (t, rest)) :
    ∃ used levels, tokens = used ++ rest ∧ Level n used t levels ∧ levels ≤ free ∧
      NoOperator n rest := by
  induction n generalizing tokens t rest with
  | zero =>
    obtain ⟨used, levels, rfl, ht, hlevels⟩ := operands h
    exact ⟨used, levels, rfl, .operand ht, hlevels, noOperator_zero rest⟩
  | succ n ih =>
    obtain ⟨⟨left, middle⟩, first, behind⟩ := bind_eq_ok_iff.mp h
    obtain ⟨used, m, rfl, hleft, hm, none⟩ := ih first
    obtain ⟨used', k, levels, rfl, ht, hlevels, none'⟩ :=
      chains (.single hleft) (by omega) none behind
    exact ⟨used ++ used', levels, by rw [List.append_assoc], .chain ht, hlevels, none'⟩

/-- How an operand is read: a single token, or parentheses, which take a level. -/
theorem operand_eq_ok {free : Nat} {tokens rest : List Token} {t : Tree}
    (h : operand free tokens = .ok (t, rest)) :
    (∃ token, tokens = token :: rest ∧ token.kind = .number ∧
        t = .number token.text token.location) ∨
      (∃ token, tokens = token :: rest ∧ token.kind = .identifier ∧
        t = .identifier token.text token.location) ∨
      ∃ inner left after middle, free = inner + 1 ∧ tokens = left :: after ∧
        left.is .delimiter "(" = true ∧ level inner precedenceLevels after = .ok (t, middle) ∧
        expect inner .delimiter ")" middle = .ok rest := by
  rw [operand.eq_def] at h
  split at h
  · simp at h
  · rename_i token after
    split at h
    · rename_i hkind
      obtain ⟨rfl, rfl⟩ : t = .number token.text token.location ∧ rest = after := by
        simpa [eq_comm] using h
      exact .inl ⟨token, rfl, hkind, rfl⟩
    · rename_i hkind
      obtain ⟨rfl, rfl⟩ : t = .identifier token.text token.location ∧ rest = after := by
        simpa [eq_comm] using h
      exact .inr (.inl ⟨token, rfl, hkind, rfl⟩)
    · rename_i hkind
      split at h
      · rename_i htext
        cases free with
        | zero => simp at h
        | succ inner =>
          obtain ⟨⟨u, middle⟩, inside, h⟩ := bind_eq_ok_iff.mp h
          obtain ⟨final, closed, h⟩ := bind_eq_ok_iff.mp h
          obtain ⟨rfl, rfl⟩ : t = u ∧ rest = final := by simpa [eq_comm] using h
          exact .inr (.inr ⟨inner, token, after, middle, rfl, rfl, Token.is_iff.mpr ⟨hkind, htext⟩,
            inside, closed⟩)
      · simp at h
    all_goals simp at h

/-- Both sorts of readers are sound with this many free levels. -/
def ExpressionsSound (free : Nat) : Prop :=
  Sound free Grammar.Operand (operand free) ∧ ChainSound free

theorem operand_sound {free : Nat} (smaller : ∀ inner, free = inner + 1 → ExpressionsSound inner) :
    Sound free Grammar.Operand (operand free) := by
  intro tokens t rest h
  obtain ⟨token, rfl, hkind, rfl⟩ | ⟨token, rfl, hkind, rfl⟩ |
    ⟨inner, left, after, middle, rfl, rfl, hleft, inside, closed⟩ := operand_eq_ok h
  · exact ⟨[token], 0, rfl, .number hkind, Nat.zero_le _⟩
  · exact ⟨[token], 0, rfl, .identifier hkind, Nat.zero_le _⟩
  · obtain ⟨operands, chains⟩ := smaller inner rfl
    obtain ⟨used, levels, rfl, ht, hlevels, -⟩ := level_sound operands chains inside
    obtain ⟨right, rfl, hright⟩ := expect_eq_ok_iff.mp closed
    exact ⟨left :: used ++ [right], levels + 1, by simp, .enclosed hleft hright ht, by omega⟩

theorem chain_sound {free : Nat} (smaller : ∀ inner, free = inner + 1 → ExpressionsSound inner) :
    ChainSound free := by
  intro n k m before tokens rest left t hleft hm none h
  rw [chain.eq_def] at h
  split at h
  · rename_i noMore
    obtain ⟨rfl, rfl⟩ : t = left ∧ rest = tokens := by simpa [eq_comm] using h
    exact ⟨[], k, m, rfl, by simpa using hleft, hm, none.succ noMore⟩
  · rename_i op location after found
    obtain ⟨token, rfl, hkind, hop, hprecedence, rfl⟩ := operatorOf_eq_some_iff.mp found
    cases free with
    | zero => simp at h
    | succ inner =>
      obtain ⟨operands, chains⟩ := smaller inner rfl
      obtain ⟨⟨right, middle⟩, first, behind⟩ := bind_eq_ok_iff.mp h
      obtain ⟨used, b, rfl, hright, hb, none'⟩ := level_sound operands chains first
      have more := Chain.more hleft hkind (mem_signs_iff.mpr ⟨hop, hprecedence⟩) hright
      obtain ⟨used', k', levels, rfl, ht, hlevels, none''⟩ := chains more (by omega) none' behind
      exact ⟨token :: used ++ used', k', levels, by simp, by simpa using ht, by omega, none''⟩

theorem expressionsSound (free : Nat) : ExpressionsSound free := by
  induction free with
  | zero => exact ⟨operand_sound (by simp), chain_sound (by simp)⟩
  | succ free ih =>
    have smaller : ∀ inner, free + 1 = inner + 1 → ExpressionsSound inner := by
      rintro _ ⟨⟩
      exact ih
    exact ⟨operand_sound smaller, chain_sound smaller⟩

theorem expression_sound (free : Nat) : Sound free Expression (expression free) := by
  intro tokens t rest h
  obtain ⟨operands, chains⟩ := expressionsSound free
  obtain ⟨used, levels, rfl, ht, hlevels, -⟩ := level_sound operands chains h
  exact ⟨used, levels, rfl, ht, hlevels⟩

/-! ## Completeness -/

/-- All levels of precedence are read completely with this many free levels. -/
def LevelsComplete (free : Nat) : Prop :=
  ∀ {n : Nat}, Complete free (Level n) (NoOperator n) (level free n)

theorem operand_complete {free : Nat} (smaller : ∀ inner, inner < free → LevelsComplete inner) :
    Complete free Grammar.Operand anything (operand free) := by
  intro used t levels rest h hlevels _
  cases h with
  | @number token hkind =>
    rw [operand.eq_def]
    simp [hkind, Tree.number]
  | @identifier token hkind =>
    rw [operand.eq_def]
    simp [hkind, Tree.identifier]
  | @enclosed left right tokens _ levels hleft hright ht =>
    cases free with
    | zero => simp at hlevels
    | succ inner =>
      obtain ⟨hkind, htext⟩ := Token.is_iff.mp hleft
      have closing : right.kind ≠ .operator := by simp [(Token.is_iff.mp hright).1]
      have inside :
          level inner precedenceLevels (tokens ++ right :: rest) = .ok (t, right :: rest) :=
        smaller inner (Nat.lt_succ_self _) ht (by omega) (noOperator_of_kind closing _)
      rw [operand.eq_def]
      simp [hkind, htext, inside, ok_bind, expect_cons hright]

/-- What is behind a chain is left to be read with the levels that its operators leave. -/
theorem level_chain {free n k levels : Nat} (smaller : ∀ inner, inner < free → LevelsComplete inner)
    (same : Complete free (Level n) (NoOperator n) (level free n))
    {used rest : List Token} {t : Tree}
    (h : Chain n k used t levels) (hlevels : levels ≤ free) (none : NoOperator n rest) :
    level free (n + 1) (used ++ rest) = chain (free - k) n t rest := by
  induction k generalizing used rest t levels with
  | zero =>
    cases h with
    | single ht =>
      have first := same ht hlevels none
      rw [level] at first
      rw [level, climb, first]
      rfl
  | succ k ih =>
    cases h with
    | @more _ _ tokens others token op left right before behind hleft hkind hsign hright =>
      obtain ⟨hop, hprecedence⟩ := mem_signs_iff.mp hsign
      obtain ⟨inner, hinner⟩ : ∃ inner, free - k = inner + 1 := ⟨free - k - 1, by omega⟩
      have found : operatorOf (precedenceLevels - n) (token :: (others ++ rest)) =
          some (op, token.location, others ++ rest) :=
        operatorOf_eq_some_iff.mpr ⟨token, rfl, hkind, hop, hprecedence, rfl⟩
      have right_ : level inner n (others ++ rest) = .ok (right, rest) :=
        smaller inner (by omega) hright (by omega) none
      rw [List.append_assoc, List.cons_append,
        ih hleft (by omega) (noOperator_of_precedence hop hprecedence), chain.eq_def, found, hinner]
      simp only [right_, ok_bind]
      rw [show free - (k + 1) = inner by omega]
      rfl

theorem level_complete {free : Nat} (smaller : ∀ inner, inner < free → LevelsComplete inner) :
    LevelsComplete free := by
  intro n
  induction n with
  | zero =>
    intro used t levels rest h hlevels _
    cases h with
    | operand ht => exact operand_complete smaller ht hlevels trivial
  | succ n ih =>
    intro used t levels rest h hlevels none
    cases h with
    | chain ht =>
      rw [level_chain smaller ih ht hlevels (none.mono (Nat.le_succ n)), chain.eq_def,
        none n (Nat.lt_succ_self n)]

theorem levelsComplete (free : Nat) : LevelsComplete free := by
  induction free using Nat.strongRecOn with
  | ind free smaller => exact level_complete smaller

theorem expression_complete (free : Nat) :
    Complete free Expression (NoOperator precedenceLevels) (expression free) :=
  levelsComplete free

end Quadrupler.Syntax
