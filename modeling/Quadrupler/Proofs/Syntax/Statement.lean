import Quadrupler.Proofs.Syntax.Expression
import Quadrupler.Syntax.Statement
set_option autoImplicit false

/-!
# Statements are read as the grammar derives them

One token decides which rule of the grammar a statement follows, so soundness and
completeness both go rule by rule.  Blocks and arms take a level each, and the induction is
on the free levels.
-/

namespace Quadrupler

theorem StepOp.symbol_of_ofSymbol? {text : String} {op : StepOp}
    (h : StepOp.ofSymbol? text = some op) : text = op.symbol := by
  rw [StepOp.ofSymbol?] at h
  split at h
  · cases h
    assumption
  · split at h
    · cases h
      assumption
    · cases h

namespace Syntax

open Grammar

variable {free : Nat}

/-! ## Conditions -/

theorem condition_sound (free : Nat) : Sound free Condition (condition free) := by
  intro tokens t rest h
  obtain ⟨after, opened, h⟩ := bind_eq_ok_iff.mp h
  obtain ⟨⟨u, middle⟩, inside, h⟩ := bind_eq_ok_iff.mp h
  obtain ⟨final, closed, h⟩ := bind_eq_ok_iff.mp h
  obtain ⟨rfl, rfl⟩ : t = u ∧ rest = final := by simpa [eq_comm] using h
  obtain ⟨left, rfl, hleft⟩ := expect_eq_ok_iff.mp opened
  obtain ⟨used, levels, rfl, ht, hlevels⟩ := expression_sound free inside
  obtain ⟨right, rfl, hright⟩ := expect_eq_ok_iff.mp closed
  exact ⟨left :: used ++ [right], levels, by simp, .mk hleft hright ht, hlevels⟩

/-- The tokens begin with a delimiter, which is what ends an expression in a statement. -/
def Delimited (tokens : List Token) : Prop :=
  ∃ token after, tokens = token :: after ∧ token.kind = .delimiter

theorem delimited_cons {token : Token} {text : String} (h : token.is .delimiter text = true)
    (after : List Token) : Delimited (token :: after) :=
  ⟨token, after, rfl, (Token.is_iff.mp h).1⟩

theorem Delimited.noOperator {tokens : List Token} (h : Delimited tokens) (n : Nat) :
    NoOperator n tokens := by
  obtain ⟨token, after, rfl, hkind⟩ := h
  exact noOperator_of_kind (by simp [hkind]) n

theorem condition_complete (free : Nat) : Complete free Condition anything (condition free) := by
  intro used t levels rest h hlevels _
  cases h with
  | @mk left right tokens _ _ hleft hright ht =>
    have inside : expression free (tokens ++ right :: rest) = .ok (t, right :: rest) :=
      expression_complete free ht hlevels ((delimited_cons hright rest).noOperator _)
    simp [condition, expect_cons hleft, ok_bind, inside, expect_cons hright]

/-! ## Simple statements -/

/-- How the tokens of an expression begin.  A name at the front is followed by an operator
between operands, never by the sign of an assignment or a step. -/
inductive Opening : List Token → Prop where
  | other {token : Token} {rest : List Token} :
      token.kind = .number ∨ token.is .delimiter "(" = true → Opening (token :: rest)
  | alone {token : Token} : token.kind = .identifier → Opening [token]
  | operator {token next : Token} {rest : List Token} {op : BinaryOp} :
      token.kind = .identifier → next.kind = .operator →
      BinaryOp.ofSymbol? next.text = some op → Opening (token :: next :: rest)

theorem Opening.append_operator {tokens others : List Token} {token : Token} {op : BinaryOp}
    (h : Opening tokens) (hkind : token.kind = .operator)
    (hop : BinaryOp.ofSymbol? token.text = some op) : Opening (tokens ++ token :: others) := by
  cases h with
  | other first => exact .other first
  | alone first => exact .operator first hkind hop
  | operator first next which => exact .operator first next which

theorem opening_of_operand {tokens : List Token} {t : Tree} {levels : Nat}
    (h : Grammar.Operand tokens t levels) : Opening tokens := by
  cases h with
  | number hkind => exact .other (.inl hkind)
  | identifier hkind => exact .alone hkind
  | enclosed hleft _ _ => exact .other (.inr hleft)

theorem opening_of_chain {n k levels : Nat}
    (tighter : ∀ {tokens t levels}, Level n tokens t levels → Opening tokens)
    {tokens : List Token} {t : Tree} (h : Chain n k tokens t levels) : Opening tokens := by
  induction k generalizing tokens t levels with
  | zero =>
    cases h with
    | single ht => exact tighter ht
  | succ k ih =>
    cases h with
    | more before hkind hsign _ =>
      exact (ih before).append_operator hkind (mem_signs_iff.mp hsign).1

theorem opening_of_level {n levels : Nat} {tokens : List Token} {t : Tree}
    (h : Level n tokens t levels) : Opening tokens := by
  induction n generalizing tokens t levels with
  | zero =>
    cases h with
    | operand ht => exact opening_of_operand ht
  | succ n ih =>
    cases h with
    | chain ht => exact opening_of_chain ih ht

theorem simple_eq_expression {used rest : List Token} (h : Opening used) (behind : Delimited rest) :
    simple free (used ++ rest) = expression free (used ++ rest) := by
  obtain ⟨delimiter, after, rfl, hdelimiter⟩ := behind
  cases h with
  | @other token others first =>
    have notName : token.kind ≠ .identifier := by
      obtain first | first := first
      · simp [first]
      · simp [(Token.is_iff.mp first).1]
    cases others with
    | nil => simp [simple, notName]
    | cons next others => simp [simple, notName]
  | alone first => simp [simple, hdelimiter]
  | @operator token next others op first hnext hop =>
    have notSign : next.text ≠ "=" := by
      rintro same
      simp [same, BinaryOp.ofSymbol?, BinaryOp.all, BinaryOp.symbol] at hop
    have notStep : StepOp.ofSymbol? next.text = none := by
      rw [StepOp.ofSymbol?]
      split
      · rename_i same
        simp [same, BinaryOp.ofSymbol?, BinaryOp.all, BinaryOp.symbol] at hop
      · split
        · rename_i same
          simp [same, BinaryOp.ofSymbol?, BinaryOp.all, BinaryOp.symbol] at hop
        · rfl
    simp [simple, first, hnext, notSign, notStep]

theorem simple_expression_sound {tokens rest : List Token} {t : Tree}
    (h : expression free tokens = .ok (t, rest)) :
    ∃ used levels, tokens = used ++ rest ∧ Simple used t levels ∧ levels ≤ free := by
  obtain ⟨used, levels, rfl, ht, hlevels⟩ := expression_sound free h
  exact ⟨used, levels, rfl, .expression ht, hlevels⟩

theorem simple_sound (free : Nat) : Sound free Simple (simple free) := by
  intro tokens t rest h
  rw [simple.eq_def] at h
  split at h
  · rename_i name sign after
    split at h
    · rename_i kinds
      split at h
      · rename_i htext
        obtain ⟨⟨value, final⟩, assigned, h⟩ := bind_eq_ok_iff.mp h
        cases h
        obtain ⟨used, levels, rfl, ht, hlevels⟩ := expression_sound free assigned
        exact ⟨name :: sign :: used, levels, rfl,
          .assign kinds.1 (Token.is_iff.mpr ⟨kinds.2, htext⟩) ht, hlevels⟩
      · split at h
        · rename_i op hop
          cases h
          exact ⟨[name, sign], 0, rfl,
            .step kinds.1 (Token.is_iff.mpr ⟨kinds.2, StepOp.symbol_of_ofSymbol? hop⟩),
            Nat.zero_le _⟩
        · exact simple_expression_sound h
    · exact simple_expression_sound h
  · exact simple_expression_sound h

theorem simple_complete (free : Nat) : Complete free Simple Delimited (simple free) := by
  intro used t levels rest h hlevels behind
  cases h with
  | @assign name sign tokens t _ hname hsign ht =>
    obtain ⟨hkind, htext⟩ := Token.is_iff.mp hsign
    have assigned := expression_complete free ht hlevels (behind.noOperator _)
    simp [simple, Tree.identifier, hname, hkind, htext, assigned, ok_bind]
  | @step name sign op hname hsign =>
    obtain ⟨hkind, htext⟩ := Token.is_iff.mp hsign
    cases op <;>
      simp [simple, Tree.identifier, hname, hkind, htext, StepOp.symbol, StepOp.ofSymbol?]
  | expression ht =>
    rw [simple_eq_expression (opening_of_level ht) behind]
    exact expression_complete free ht hlevels (behind.noOperator _)

/-! ## Statements, given their blocks and arms -/

/-- The arms of a switch with the braces around them. -/
inductive EnclosedArms : Derivation (List Tree) where
  | mk {left right : Token} {tokens : List Token} {arms : List Tree} {levels : Nat} :
      left.is .delimiter openBrace = true → right.is .delimiter closeBrace = true →
      Arms tokens arms levels → EnclosedArms (left :: tokens ++ [right]) arms (levels + 1)

/-- The tokens do not go on with an alternative. -/
def NoElse (tokens : List Token) : Prop := begins .keyword "else" tokens = false

section

variable {block : Step Tree} {arms : Step (List Tree)}

theorem statementWith_sound (blocks : Sound free Block block)
    (allArms : Sound free EnclosedArms arms) :
    Sound free Statement (statementWith free block arms) := by
  intro tokens t rest h
  rw [statementWith.eq_def] at h
  split at h
  · simp at h
  rename_i word after
  split at h
  · -- return
    rename_i hkind htext
    obtain ⟨⟨value, middle⟩, read, h⟩ := bind_eq_ok_iff.mp h
    obtain ⟨final, closed, h⟩ := bind_eq_ok_iff.mp h
    cases h
    obtain ⟨used, levels, rfl, ht, hlevels⟩ := expression_sound free read
    obtain ⟨semicolon, rfl, hsemicolon⟩ := expect_eq_ok_iff.mp closed
    exact ⟨word :: used ++ [semicolon], levels, by simp,
      .returning (Token.is_iff.mpr ⟨hkind, htext⟩) hsemicolon ht, hlevels⟩
  · -- if
    rename_i hkind htext
    have hword := Token.is_iff.mpr ⟨hkind, htext⟩
    obtain ⟨⟨test, middle⟩, tested, h₁⟩ := bind_eq_ok_iff.mp h
    obtain ⟨⟨body, behind⟩, read, h₂⟩ := bind_eq_ok_iff.mp h₁
    obtain ⟨used, m, rfl, ht, hm⟩ := condition_sound free tested
    obtain ⟨used', n, rfl, hb, hn⟩ := blocks read
    have short : ∃ used₁ levels, word :: (used ++ (used' ++ behind)) = used₁ ++ behind ∧
        Statement used₁
          { kind := .ifThen, location := word.location, left := some test, right := some body }
          levels ∧ levels ≤ free :=
      ⟨word :: used ++ used', max m n, by simp, .ifThen hword ht hb, by omega⟩
    simp only at h₂
    split at h₂
    · cases h₂
      exact short
    · rename_i other tail
      split at h₂
      · rename_i hother
        obtain ⟨⟨alternative, final⟩, read', h₃⟩ := bind_eq_ok_iff.mp h₂
        cases h₃
        obtain ⟨used'', k, rfl, ha, hk⟩ := blocks read'
        exact ⟨word :: used ++ used' ++ other :: used'', max m (max n k), by simp,
          .ifElse hword hother ht hb ha, by omega⟩
      · cases h₂
        exact short
  · -- while
    rename_i hkind htext
    obtain ⟨⟨test, middle⟩, tested, h⟩ := bind_eq_ok_iff.mp h
    obtain ⟨⟨body, behind⟩, read, h⟩ := bind_eq_ok_iff.mp h
    cases h
    obtain ⟨used, m, rfl, ht, hm⟩ := condition_sound free tested
    obtain ⟨used', n, rfl, hb, hn⟩ := blocks read
    exact ⟨word :: used ++ used', max m n, by simp,
      .whileLoop (Token.is_iff.mpr ⟨hkind, htext⟩) ht hb, by omega⟩
  · -- for
    rename_i hkind htext
    obtain ⟨r₁, opened, h⟩ := bind_eq_ok_iff.mp h
    obtain ⟨⟨first, r₂⟩, readFirst, h⟩ := bind_eq_ok_iff.mp h
    obtain ⟨r₃, closedFirst, h⟩ := bind_eq_ok_iff.mp h
    obtain ⟨⟨test, r₄⟩, tested, h⟩ := bind_eq_ok_iff.mp h
    obtain ⟨r₅, closedTest, h⟩ := bind_eq_ok_iff.mp h
    obtain ⟨⟨advance, r₆⟩, readAdvance, h⟩ := bind_eq_ok_iff.mp h
    obtain ⟨r₇, closed, h⟩ := bind_eq_ok_iff.mp h
    obtain ⟨⟨body, final⟩, read, h⟩ := bind_eq_ok_iff.mp h
    cases h
    obtain ⟨left, rfl, hleft⟩ := expect_eq_ok_iff.mp opened
    obtain ⟨usedFirst, j, rfl, hi, hj⟩ := simple_sound free readFirst
    obtain ⟨one, rfl, hone⟩ := expect_eq_ok_iff.mp closedFirst
    obtain ⟨usedTest, k, rfl, he, hk⟩ := expression_sound free tested
    obtain ⟨two, rfl, htwo⟩ := expect_eq_ok_iff.mp closedTest
    obtain ⟨usedAdvance, m, rfl, ha, hm⟩ := simple_sound free readAdvance
    obtain ⟨right, rfl, hright⟩ := expect_eq_ok_iff.mp closed
    obtain ⟨usedBody, n, rfl, hb, hn⟩ := blocks read
    exact ⟨word :: left :: usedFirst ++ one :: usedTest ++ two :: usedAdvance ++ right :: usedBody,
      max j (max k (max m n)), by simp,
      .forLoop (Token.is_iff.mpr ⟨hkind, htext⟩) hleft hone htwo hright hi he ha hb, by omega⟩
  · -- do
    rename_i hkind htext
    obtain ⟨⟨body, middle⟩, read, h⟩ := bind_eq_ok_iff.mp h
    obtain ⟨behind, again, h⟩ := bind_eq_ok_iff.mp h
    obtain ⟨⟨test, end_⟩, tested, h⟩ := bind_eq_ok_iff.mp h
    obtain ⟨final, closed, h⟩ := bind_eq_ok_iff.mp h
    cases h
    obtain ⟨used, m, rfl, hb, hm⟩ := blocks read
    obtain ⟨word', rfl, hword'⟩ := expect_eq_ok_iff.mp again
    obtain ⟨used', n, rfl, ht, hn⟩ := condition_sound free tested
    obtain ⟨semicolon, rfl, hsemicolon⟩ := expect_eq_ok_iff.mp closed
    exact ⟨word :: used ++ word' :: used' ++ [semicolon], max m n, by simp,
      .doLoop (Token.is_iff.mpr ⟨hkind, htext⟩) hword' hsemicolon hb ht, by omega⟩
  · -- switch
    rename_i hkind htext
    obtain ⟨⟨test, middle⟩, tested, h⟩ := bind_eq_ok_iff.mp h
    obtain ⟨⟨ts, behind⟩, read, h⟩ := bind_eq_ok_iff.mp h
    cases h
    obtain ⟨used, m, rfl, ht, hm⟩ := condition_sound free tested
    obtain ⟨used', n, rfl, hts, hn⟩ := allArms read
    cases hts with
    | @mk left right body _ k hleft hright hbody =>
      exact ⟨word :: used ++ left :: body ++ [right], max m (k + 1), by simp,
        .switch (Token.is_iff.mpr ⟨hkind, htext⟩) hleft hright ht hbody, by omega⟩
  · -- no other keyword begins a statement
    simp at h
  · -- the empty statement
    rename_i hkind htext
    cases h
    exact ⟨[word], 0, rfl, .empty (Token.is_iff.mpr ⟨hkind, htext⟩), Nat.zero_le _⟩
  · -- a block
    obtain ⟨used, levels, same, hb, hlevels⟩ := blocks h
    exact ⟨used, levels, same, .block hb, hlevels⟩
  · -- anything else
    obtain ⟨⟨u, middle⟩, read, h⟩ := bind_eq_ok_iff.mp h
    obtain ⟨final, closed, h⟩ := bind_eq_ok_iff.mp h
    cases h
    obtain ⟨used, levels, same, ht, hlevels⟩ := simple_sound free read
    obtain ⟨semicolon, rfl, hsemicolon⟩ := expect_eq_ok_iff.mp closed
    exact ⟨used ++ [semicolon], levels, by simp [same], .simple hsemicolon ht, hlevels⟩

theorem simple_begins {used : List Token} {t : Tree} {levels : Nat} (h : Simple used t levels) :
    ∃ token others, used = token :: others ∧
      (token.kind = .number ∨ token.kind = .identifier ∨ token.is .delimiter "(" = true) := by
  cases h with
  | assign hname _ _ => exact ⟨_, _, rfl, .inr (.inl hname)⟩
  | step hname _ => exact ⟨_, _, rfl, .inr (.inl hname)⟩
  | expression ht =>
    cases opening_of_level ht with
    | other first => exact ⟨_, _, rfl, first.imp_right .inr⟩
    | alone first => exact ⟨_, _, rfl, .inr (.inl first)⟩
    | operator first _ _ => exact ⟨_, _, rfl, .inr (.inl first)⟩

/-- A simple statement begins with none of the words and signs that begin another one. -/
theorem statementWith_eq_simple {used rest : List Token} {t : Tree} {levels : Nat}
    (h : Simple used t levels) :
    statementWith free block arms (used ++ rest) = (do
      let (statement, rest) ← simple free (used ++ rest)
      let rest ← expect free .delimiter ";" rest
      .ok (statement, rest)) := by
  obtain ⟨token, others, rfl, hkind | hkind | hopen⟩ := simple_begins h
  · simp [statementWith, hkind]
  · simp [statementWith, hkind]
  · obtain ⟨hkind, htext⟩ := Token.is_iff.mp hopen
    simp [statementWith, hkind, htext]

theorem statementWith_complete (blocks : Complete free Block anything block)
    (allArms : Complete free EnclosedArms anything arms) :
    Complete free Statement NoElse (statementWith free block arms) := by
  intro used t levels rest h hlevels noElse
  cases h with
  | @returning word semicolon tokens t _ hword hsemicolon ht =>
    obtain ⟨hkind, htext⟩ := Token.is_iff.mp hword
    have read : expression free (tokens ++ semicolon :: rest) = .ok (t, semicolon :: rest) :=
      expression_complete free ht hlevels ((delimited_cons hsemicolon rest).noOperator _)
    simp [statementWith, hkind, htext, read, ok_bind, expect_cons hsemicolon]
  | @ifThen word test body e b m n hword he hb =>
    obtain ⟨hkind, htext⟩ := Token.is_iff.mp hword
    have tested : condition free (test ++ (body ++ rest)) = .ok (e, body ++ rest) :=
      condition_complete free he (by omega) trivial
    have read : block (body ++ rest) = .ok (b, rest) := blocks hb (by omega) trivial
    simp only [statementWith, hkind, htext, List.cons_append, List.append_assoc, tested, ok_bind,
      read]
    cases rest with
    | nil => rfl
    | cons other after =>
      rw [NoElse, begins_cons] at noElse
      simp [noElse]
  | @ifElse word other test body alternative e b a m n k hword hother he hb ha =>
    obtain ⟨hkind, htext⟩ := Token.is_iff.mp hword
    have tested : condition free (test ++ (body ++ other :: (alternative ++ rest))) =
        .ok (e, body ++ other :: (alternative ++ rest)) :=
      condition_complete free he (by omega) trivial
    have read : block (body ++ other :: (alternative ++ rest)) =
        .ok (b, other :: (alternative ++ rest)) :=
      blocks hb (by omega) trivial
    have read' : block (alternative ++ rest) = .ok (a, rest) := blocks ha (by omega) trivial
    simp [statementWith, hkind, htext, tested, ok_bind, read, hother, read']
  | @whileLoop word test body e b m n hword he hb =>
    obtain ⟨hkind, htext⟩ := Token.is_iff.mp hword
    have tested : condition free (test ++ (body ++ rest)) = .ok (e, body ++ rest) :=
      condition_complete free he (by omega) trivial
    have read : block (body ++ rest) = .ok (b, rest) := blocks hb (by omega) trivial
    simp [statementWith, hkind, htext, tested, ok_bind, read]
  | @forLoop word left one two right first test advance body i e a b j k m n hword hleft hone htwo
      hright hi he ha hb =>
    obtain ⟨hkind, htext⟩ := Token.is_iff.mp hword
    have readBody : block (body ++ rest) = .ok (b, rest) := blocks hb (by omega) trivial
    have readAdvance := simple_complete free ha (by omega)
      (delimited_cons hright (body ++ rest))
    have tested := expression_complete free he (by omega)
      ((delimited_cons htwo (advance ++ right :: (body ++ rest))).noOperator _)
    have readFirst := simple_complete free hi (by omega)
      (delimited_cons hone (test ++ two :: (advance ++ right :: (body ++ rest))))
    simp [statementWith, hkind, htext, ok_bind, expect_cons hleft, readFirst, expect_cons hone,
      tested, expect_cons htwo, readAdvance, expect_cons hright, readBody]
  | @doLoop word again semicolon body test b e m n hword hagain hsemicolon hb he =>
    obtain ⟨hkind, htext⟩ := Token.is_iff.mp hword
    have tested : condition free (test ++ semicolon :: rest) = .ok (e, semicolon :: rest) :=
      condition_complete free he (by omega) trivial
    have read : block (body ++ again :: (test ++ semicolon :: rest)) =
        .ok (b, again :: (test ++ semicolon :: rest)) :=
      blocks hb (by omega) trivial
    simp [statementWith, hkind, htext, read, ok_bind, expect_cons hagain, tested,
      expect_cons hsemicolon]
  | @switch word left right test body e ts m n hword hleft hright he hts =>
    obtain ⟨hkind, htext⟩ := Token.is_iff.mp hword
    have tested : condition free (test ++ left :: (body ++ right :: rest)) =
        .ok (e, left :: (body ++ right :: rest)) :=
      condition_complete free he (by omega) trivial
    have enclosed : arms (left :: body ++ [right] ++ rest) = .ok (ts, rest) :=
      allArms (.mk hleft hright hts) (by omega) trivial
    have read : arms (left :: (body ++ right :: rest)) = .ok (ts, rest) := by simpa using enclosed
    simp [statementWith, hkind, htext, tested, ok_bind, read]
  | block hb =>
    have read : block (used ++ rest) = .ok (t, rest) := blocks hb hlevels trivial
    cases hb with
    | @mk left right tokens ts n hleft hright hts =>
      obtain ⟨hkind, htext⟩ := Token.is_iff.mp hleft
      rw [← read]
      simp [statementWith, hkind, htext]
  | @empty semicolon hsemicolon =>
    obtain ⟨hkind, htext⟩ := Token.is_iff.mp hsemicolon
    simp [statementWith, hkind, htext]
  | @simple semicolon tokens t _ hsemicolon ht =>
    have read : simple free (tokens ++ semicolon :: rest) = .ok (t, semicolon :: rest) :=
      simple_complete free ht hlevels (delimited_cons hsemicolon rest)
    rw [List.append_assoc, statementWith_eq_simple ht]
    simp [read, ok_bind, expect_cons hsemicolon]

end

end Syntax

end Quadrupler
