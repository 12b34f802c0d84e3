import Quadrupler.Proofs.Join
import Quadrupler.Proofs.Syntax.PromptExpression
import Quadrupler.Proofs.Token.Words
set_option autoImplicit false

/-!
# Expressions are read as they are written

An expression is written with parentheses only where they are needed, and reading the text gives
the expression back: the grammar derives it from its tokens, and whatever the grammar derives is
read, unless it needs more levels than are free.  It never needs more than half its tokens.
-/

namespace Quadrupler

namespace Tree

/-! ## The tokens of an expression -/

/-- Tokens, in parentheses if asked for. -/
def parenthesized (parentheses : Bool) (tokens : List Token) : List Token :=
  if parentheses then ⟨.delimiter, "(", .start⟩ :: tokens ++ [⟨.delimiter, ")", .start⟩]
  else tokens

/-- The tokens that an expression is written with, without their places. -/
def tokens : Tree → List Token
  | ⟨.number text, _, _, _, _⟩ => [⟨.number, text, .start⟩]
  | ⟨.identifier name, _, _, _, _⟩ => [⟨.identifier, name, .start⟩]
  | ⟨.binary op, _, some left, some right, _⟩ =>
    parenthesized (left.tightness < op.precedence) (tokens left) ++
      ⟨.operator, op.symbol, .start⟩ ::
        parenthesized (right.tightness ≤ op.precedence) (tokens right)
  | _ => []

theorem map_text_parenthesized (parentheses : Bool) (ts : List Token) :
    (parenthesized parentheses ts).map Token.text = enclosed parentheses (ts.map Token.text) := by
  cases parentheses with
  | false => rfl
  | true => simp [parenthesized, enclosed]

theorem map_text_tokens {t : Tree} (h : t.isFormula = true) :
    t.tokens.map Token.text = t.words := by
  fun_induction isFormula t with
  | case1 text p => rw [tokens, words, List.map_singleton]
  | case2 name p => rw [tokens, words, List.map_singleton]
  | case3 op p left right ihLeft ihRight =>
    obtain ⟨hleft, hright⟩ := (Bool.and_eq_true _ _).mp h
    rw [tokens, words, List.map_append, List.map_cons, map_text_parenthesized,
      map_text_parenthesized, ihLeft hleft, ihRight hright]
  | case4 => cases h

theorem spelled_parenthesized {parentheses : Bool} {ts : List Token}
    (h : ∀ opened, Token.SpelledAll opened ts opened) (opened : List Char) :
    Token.SpelledAll opened (parenthesized parentheses ts) opened := by
  cases parentheses with
  | false => exact h opened
  | true => exact .cons .left ((h _).append (.cons .right .nil))

theorem spelled_tokens {t : Tree} (h : t.isFormula = true) (opened : List Char) :
    Token.SpelledAll opened t.tokens opened := by
  fun_induction isFormula t generalizing opened with
  | case1 text p =>
    rw [tokens]
    exact .cons (.number h) .nil
  | case2 name p =>
    rw [tokens]
    exact .cons (.name h) .nil
  | case3 op p left right ihLeft ihRight =>
    obtain ⟨hleft, hright⟩ := (Bool.and_eq_true _ _).mp h
    rw [tokens]
    refine (spelled_parenthesized (ihLeft hleft) opened).append ?_
    exact .cons (.operator op) (spelled_parenthesized (ihRight hright) opened)
  | case4 => cases h

theorem one_le_tightness (t : Tree) : 1 ≤ t.tightness := by
  unfold tightness
  split
  · exact Syntax.precedence_pos _
  · decide

end Tree

namespace Syntax

open Grammar Quadrupler.Tree

variable {m n levels : Nat} {tokens : List Token} {t : Tree}

/-! ## Derivations -/

theorem level_mono (h : Level m tokens t levels) (le : m ≤ n) : Level n tokens t levels := by
  induction le with
  | refl => exact h
  | step _ ih => exact .chain (.single ih)

/-- In parentheses, an expression is as tight as asked for. -/
theorem level_parenthesized {parentheses : Bool} (h : Level m tokens t levels)
    (le : m ≤ precedenceLevels) (fits : parentheses = false → m ≤ n) :
    ∃ levels', Level n (parenthesized parentheses tokens) t levels' := by
  cases parentheses with
  | false => exact ⟨levels, level_mono h (fits rfl)⟩
  | true =>
    have operand : Grammar.Operand (parenthesized true tokens) t (levels + 1) :=
      .enclosed rfl rfl (level_mono h le)
    exact ⟨levels + 1, level_mono (.operand operand) (Nat.zero_le n)⟩

/-- The first operand of an operator is a chain of operators that bind as tightly, or tighter. -/
theorem chain_parenthesized {tightness precedence : Nat}
    (h : Level (precedenceLevels + 1 - tightness) tokens t levels)
    (loose : 1 ≤ tightness) (least : 1 ≤ precedence) (most : precedence ≤ precedenceLevels) :
    ∃ operators levels', Chain (precedenceLevels - precedence) operators
      (parenthesized (tightness < precedence) tokens) t levels' := by
  by_cases same : tightness = precedence
  · have plain : decide (tightness < precedence) = false := by simp [same]
    have root : precedenceLevels + 1 - tightness = precedenceLevels - precedence + 1 := by omega
    rw [root] at h
    rw [plain]
    cases h with
    | chain chain => exact ⟨_, _, chain⟩
  · obtain ⟨levels', derived⟩ : ∃ levels', Level (precedenceLevels - precedence)
        (parenthesized (tightness < precedence) tokens) t levels' := by
      refine level_parenthesized h (by omega) fun plain => ?_
      have tighter := of_decide_eq_false plain
      omega
    exact ⟨0, levels', .single derived⟩

/-- An expression is derived on the level of its root, from the tokens it is written with. -/
theorem level_tokens (h : t.isFormula = true) :
    ∃ levels, Level (precedenceLevels + 1 - t.tightness) t.tokens t.unplaced levels := by
  fun_induction isFormula t with
  | case1 text p => exact ⟨0, .operand (.number rfl)⟩
  | case2 name p => exact ⟨0, .operand (.identifier rfl)⟩
  | case3 op p left right ihLeft ihRight =>
    obtain ⟨hleft, hright⟩ := (Bool.and_eq_true _ _).mp h
    obtain ⟨_, first⟩ := ihLeft hleft
    obtain ⟨_, second⟩ := ihRight hright
    have least : 1 ≤ op.precedence := precedence_pos op
    have most : op.precedence ≤ precedenceLevels := by cases op <;> decide
    obtain ⟨operators, before, chain⟩ :=
      chain_parenthesized first left.one_le_tightness least most
    obtain ⟨behind, operand⟩ : ∃ behind, Level (precedenceLevels - op.precedence)
        (parenthesized (right.tightness ≤ op.precedence) right.tokens) right.unplaced behind := by
      have loose := right.one_le_tightness
      refine level_parenthesized second (by omega) fun plain => ?_
      have tighter := of_decide_eq_false plain
      omega
    have root : precedenceLevels + 1 - op.precedence = precedenceLevels - op.precedence + 1 := by
      omega
    have whole : Level (precedenceLevels - op.precedence + 1)
        (Tree.tokens ⟨.binary op, p, some left, some right, []⟩)
        (Tree.unplaced ⟨.binary op, p, some left, some right, []⟩) _ :=
      .chain (.more chain rfl (mem_signs_iff.mpr ⟨BinaryOp.ofSymbol?_symbol op, by omega⟩) operand)
    rw [← root] at whole
    exact ⟨_, whole⟩
  | case4 => cases h

/-! ## Levels -/

mutual

theorem levels_lt_of_operand : ∀ {tokens : List Token} {t : Tree} {levels : Nat},
    Grammar.Operand tokens t levels → 2 * levels < tokens.length
  | _, _, _, .number _ => by simp
  | _, _, _, .identifier _ => by simp
  | _, _, _, .enclosed _ _ h => by
    have inside := levels_lt_of_level h
    rw [List.length_append, List.length_cons, List.length_singleton]
    omega

theorem levels_lt_of_level : ∀ {n : Nat} {tokens : List Token} {t : Tree} {levels : Nat},
    Level n tokens t levels → 2 * levels < tokens.length
  | _, _, _, _, .operand h => levels_lt_of_operand h
  | _, _, _, _, .chain h => (levels_lt_of_chain h).1

/-- Every level that is needed, and every operator of a chain, takes two tokens and leaves one. -/
theorem levels_lt_of_chain :
    ∀ {n operators : Nat} {tokens : List Token} {t : Tree} {levels : Nat},
      Chain n operators tokens t levels →
        2 * levels < tokens.length ∧ 2 * operators < tokens.length
  | _, _, _, _, _, .single h => by
    have inside := levels_lt_of_level h
    omega
  | _, _, _, _, _, .more left _ _ right => by
    have before := levels_lt_of_chain left
    have behind := levels_lt_of_level right
    rw [List.length_append, List.length_cons]
    omega

end

/-! ## Reading -/

theorem expression_eq_ok {free : Nat} (h : Expression tokens t levels) (enough : levels ≤ free) :
    expression free tokens = .ok (t, []) := by
  have ends : NoOperator precedenceLevels [] := fun _ _ => rfl
  have read := expression_complete free h enough ends
  rwa [List.append_nil] at read

/-- What the grammar derives is read, or needs more levels than are free. -/
theorem expression_of_derived (h : Expression tokens t levels) (free : Nat) :
    expression free tokens = .ok (t, []) ∨
      ∃ stuck, expression free tokens = .error stuck ∧ stuck.expected = .fewerLevels := by
  -- With more levels the same happens, except where they run out; with enough all is read.
  have complete := expression_eq_ok h (Nat.le_max_right free levels)
  have prompt := expression_prompt (Nat.le_max_left free levels) tokens
  rcases result : expression free tokens with stuck | ⟨u, rest⟩
  · rw [result] at prompt
    obtain ⟨used, rfl, -, again⟩ := prompt
    refine .inr ⟨stuck, rfl, ?_⟩
    by_contra other
    obtain ⟨free', failed⟩ := again other stuck.rest rfl
    rw [failed] at complete
    cases complete
  · rw [result] at prompt
    obtain ⟨used, rfl, -, again⟩ := prompt
    rw [again rest rfl] at complete
    cases complete
    exact .inl rfl

end Syntax

/-! ## Texts -/

namespace Cursor

variable {cursor : Cursor} {tokens : List Token}

/-- From a cursor, tokens are read as they are read elsewhere. -/
theorem expression_of_ok (bounds : cursor.InBounds)
    (moved : cursor.rest.map Token.unplaced = tokens) {t : Tree}
    (read : Syntax.expression cursor.free tokens = .ok (t, [])) :
    ∃ u after, cursor.expression = (.ok u, after) ∧ u.unplaced = t ∧ after.atEnd = true := by
  rw [← moved, (Syntax.expression_blind cursor.free).2] at read
  rcases result : Syntax.expression cursor.free cursor.rest with stuck | ⟨u, rest⟩
  · rw [result] at read
    cases read
  · rw [result] at read
    obtain ⟨same, rfl⟩ : u.unplaced = t ∧ rest = [] := by
      simpa [Syntax.forget] using read
    refine ⟨u, cursor.moveTo [], ?_, same, ?_⟩
    · rw [bounds.expression_eq_read, Cursor.read, result]
      rfl
    · simp [atEnd, Cursor.rest, moveTo]

theorem expression_of_error (bounds : cursor.InBounds)
    (moved : cursor.rest.map Token.unplaced = tokens)
    {stuck : Syntax.Stuck} (failed : Syntax.expression cursor.free tokens = .error stuck) :
    ∃ e after, cursor.expression = (.error e, after) ∧ e.expected = stuck.expected := by
  rw [← moved, (Syntax.expression_blind cursor.free).2] at failed
  rcases result : Syntax.expression cursor.free cursor.rest with stuck' | ⟨u, rest⟩
  · rw [result] at failed
    cases failed
    rw [bounds.expression_eq_read, Cursor.read, result]
    exact ⟨_, _, rfl, rfl⟩
  · rw [result] at failed
    cases failed

end Cursor

open Syntax Syntax.Grammar

/-- A written expression is cut into the tokens it is written with. -/
theorem unplaced_ofText_written {t : Tree} (h : t.isFormula = true) :
    (Cursor.ofText t.written).rest.map Token.unplaced = t.tokens := by
  have spelled := Tree.spelled_tokens h []
  have scanned : (Token.scan t.written).map Token.unplaced = t.tokens := by
    unfold Token.scan Tree.written
    rw [← Tree.map_text_tokens h]
    exact spelled.scanFrom_eq .start
  show (Token.significant (Token.scan t.written)).map Token.unplaced = t.tokens
  rw [significant_map_unplaced, scanned]
  refine List.filter_eq_self.mpr fun token member => ?_
  simpa using spelled.kind_ne token member

/-- An expression that is written down and read again is the same but for the places in it, and
all tokens are read, unless there are not enough levels of nesting.  There are enough for twice as
many words, and one more. -/
theorem expression_written (t : Tree) (h : t.isFormula = true) :
    let cursor := Cursor.ofText t.written
    let back : Prop := ∃ u after, cursor.expression = (.ok u, after) ∧ u.unplaced = t.unplaced ∧
      after.atEnd = true
    (back ∨ ∃ e after, cursor.expression = (.error e, after) ∧ e.expected = .fewerLevels) ∧
      (t.words.length ≤ 2 * nestingLimit + 1 → back) := by
  intro cursor back
  obtain ⟨levels, derived⟩ := level_tokens h
  have whole : Expression t.tokens t.unplaced levels := by
    have loose := t.one_le_tightness
    have least : precedenceLevels + 1 - t.tightness ≤ precedenceLevels := by omega
    exact level_mono derived least
  have bounds := Cursor.inBounds_ofTokens (Token.scan t.written)
  have moved := unplaced_ofText_written h
  constructor
  · rcases expression_of_derived whole nestingLimit with read | ⟨stuck, failed, limit⟩
    · exact .inl (Cursor.expression_of_ok bounds moved read)
    · obtain ⟨e, after, result, expected⟩ := Cursor.expression_of_error bounds moved failed
      exact .inr ⟨e, after, result, expected.trans limit⟩
  · intro short
    have few := levels_lt_of_level whole
    rw [← Tree.map_text_tokens h, List.length_map] at short
    have enough : levels ≤ nestingLimit := by omega
    exact Cursor.expression_of_ok bounds moved (expression_eq_ok whole enough)

/-- An operand on either side of the minus has an operator that binds as loosely, and only the right
one is in parentheses; the power needs some around both. -/
theorem expression_written_mixed :
    let name (text : String) : Tree := .identifier text ⟨7, 7⟩
    let number (text : String) : Tree := .number text ⟨7, 7⟩
    let t : Tree := .binary .lt
      (.binary .mul
        (.binary .pow
          (.binary .sub (.binary .sub (name "a") (name "b") ⟨7, 7⟩)
            (.binary .add (name "c") (number "1.5") ⟨7, 7⟩) ⟨7, 7⟩)
          (number "2") ⟨7, 7⟩)
        (name "d") ⟨7, 7⟩)
      (name "e") ⟨7, 7⟩
    t.isFormula = true ∧ t.written = "( a - b - ( c + 1.5 ) ) ^ 2 * d < e" ∧
      ∃ u after, (Cursor.ofText t.written).expression = (.ok u, after) ∧
        u.unplaced = t.unplaced ∧ after.atEnd = true := by
  intro name number t
  have formula : t.isFormula = true := by decide
  exact ⟨formula, by decide, (expression_written t formula).2 (by decide)⟩

end Quadrupler
