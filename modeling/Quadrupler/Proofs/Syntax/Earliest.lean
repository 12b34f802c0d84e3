import Quadrupler.Proofs.Syntax.PromptStatement
set_option autoImplicit false

/-!
# Errors are found at the earliest token

The cursor of a failed reading stands before the first token that no program has there.
Statements are prompt for all levels, and with enough of them every program is read; so a
program that goes on from where the reading is stuck would be read and stuck at once.
-/

namespace Quadrupler

namespace Syntax

open Grammar
open scoped Computability

/-! ## Programs -/

theorem statements_prompt {free free' : Nat} (more : free ≤ free') :
    Prompt (derived Statements) (readUntil (fun _ => false) (statement free))
      (readUntil (fun _ => false) (statement free')) := by
  have statements : Prompt (derived Statement) (statement free) (statement free') :=
    statementWith_prompt more (braces_prompt more).1 (braces_prompt more).2
  have looks : LooksAhead fun _ => false := fun _ _ _ => rfl
  exact (prompt_readUntil looks (consumes_statement free) (consumes_statement free')
    statements).mono kstar_statement

theorem statements_le_program : derived Statements ≤ derived Program := by
  rintro used ⟨ts, levels, derivation⟩
  exact ⟨_, levels, .mk derivation⟩

/-- What has been read when a program is stuck begins a program, and no program goes on from
there with the next token or, if there is none, ends there. -/
theorem earliest_of_stuck {here : Location} {free : Nat} {tokens : List Token} {stuck : Stuck}
    (h : program here free tokens = .error stuck) :
    ∃ used, tokens = used ++ stuck.rest ∧ Viable (derived Program) used ∧
      (stuck.expected ≠ .fewerLevels →
        ∀ other : List Token, other.head? = stuck.rest.head? →
          used ++ other ∉ derived Program) := by
  have read : readUntil (fun _ => false) (statement free) tokens = .error stuck := by
    cases read : readUntil (fun _ => false) (statement free) tokens with
    | error stuck' =>
      rw [program, read] at h
      cases h
      rfl
    | ok result =>
      rw [program, read] at h
      cases h
  have prompt {free' : Nat} (more : free ≤ free') := statements_prompt more tokens
  simp only [read] at prompt
  obtain ⟨used, split, viable, -⟩ := prompt (Nat.le_refl free)
  refine ⟨used, split, viable.mono statements_le_program, ?_⟩
  rintro limit other same ⟨t, levels, derivation⟩
  -- With enough levels for the derivation, the program would be read and get stuck as well.
  obtain ⟨used', split', -, again⟩ := prompt (Nat.le_max_left free levels)
  obtain rfl : used = used' := List.append_cancel_right (split.symm.trans split')
  obtain ⟨free', stuck'⟩ := again limit other same
  have accepted : program .start (max free levels) (used ++ other) = .ok (t, []) :=
    (program_eq_ok_iff fun _ => rfl).mpr ⟨rfl, levels, Nat.le_max_right free levels, derivation⟩
  rw [program, stuck'] at accepted
  cases accepted

end Syntax

open Syntax

/-- The cursor that is left where reading got stuck, and the error made of it. -/
theorem exists_stuck_of_parseTokens {tokens : List Token} {e : SyntaxError}
    (h : parseTokens tokens = .error e) :
    ∃ stuck, program (Cursor.ofTokens tokens).location nestingLimit (Token.significant tokens) =
        .error stuck ∧
      (Cursor.ofTokens tokens).program.2 =
        ⟨Token.significant tokens, (Token.significant tokens).length - stuck.rest.length,
          nestingLimit - stuck.free⟩ ∧
      e = (Cursor.ofTokens tokens).program.2.error stuck.expected := by
  have ahead : (Cursor.ofTokens tokens).rest = Token.significant tokens := List.drop_zero
  have levels : (Cursor.ofTokens tokens).free = nestingLimit := rfl
  rw [parseTokens] at h
  rw [(Cursor.inBounds_ofTokens tokens).program_eq_read, Cursor.read, ahead, levels] at h ⊢
  cases result : program (Cursor.ofTokens tokens).location nestingLimit
      (Token.significant tokens) with
  | ok value =>
    rw [result] at h
    cases h
  | error stuck =>
    rw [result] at h
    injection h with h
    exact ⟨stuck, rfl, rfl, h.symm⟩

/-- The place of the token at a position, or the place after the last token. -/
def Token.placeAt (tokens : List Token) (position : Nat) : Location :=
  match tokens[position]? with
  | some token => token.location
  | none => (tokens.getLast?.map stop).getD .start

theorem Cursor.location_eq_placeAt (cursor : Cursor) :
    cursor.location = Token.placeAt cursor.tokens cursor.position := by
  have next : cursor.peek? = cursor.tokens[cursor.position]? := by
    rw [peek?, rest, List.head?_drop]
  rw [location, next]
  rfl

/-- Errors are found at the earliest token.  What lies before the cursor begins a program.
Unless there were too few levels, either the tokens end at the cursor and are no program, or
no program begins with them and the next one.  The error stands where the cursor does. -/
theorem parseTokens_error_earliest (tokens : List Token) (e : SyntaxError)
    (h : parseTokens tokens = .error e) :
    let read := tokens.filter fun token => token.kind ≠ .comment
    let position := (Cursor.ofTokens tokens).program.2.position
    position ≤ read.length ∧
      (∃ more t levels, Grammar.Program (read.take position ++ more) t levels) ∧
      (e.expected ≠ .fewerLevels →
        position = read.length ∧ (¬∃ t levels, Grammar.Program read t levels) ∨
        position < read.length ∧
          ¬∃ more t levels, Grammar.Program (read.take (position + 1) ++ more) t levels) ∧
      e.location = Token.placeAt read position := by
  intro read position
  obtain ⟨stuck, failed, left, rfl⟩ := exists_stuck_of_parseTokens h
  obtain ⟨used, split, ⟨more, t, levels, begun⟩, earliest⟩ := earliest_of_stuck failed
  change read = used ++ stuck.rest at split
  have here : position = used.length := by
    have moved : position = read.length - stuck.rest.length := congrArg Cursor.position left
    rw [moved, split, List.length_append, Nat.add_sub_cancel_right]
  refine ⟨?_, ⟨more, t, levels, ?_⟩, fun limit => ?_, ?_⟩
  · rw [here, split, List.length_append]
    exact Nat.le_add_right _ _
  · rw [here, split, List.take_left]
    exact begun
  · have none := earliest limit
    rw [here, split]
    cases ahead : stuck.rest with
    | nil =>
      refine .inl ⟨by rw [List.append_nil], ?_⟩
      rintro ⟨t, levels, derivation⟩
      exact none [] (by rw [ahead]) ⟨t, levels, derivation⟩
    | cons token after =>
      refine .inr ⟨by rw [List.length_append, List.length_cons]; omega, ?_⟩
      rintro ⟨more, t, levels, derivation⟩
      have begins : (used ++ token :: after).take (used.length + 1) = used ++ [token] := by
        rw [List.take_length_add_append, List.take_succ_cons, List.take_zero]
      rw [begins, List.append_assoc] at derivation
      exact none (token :: more) (by rw [ahead]; rfl) ⟨t, levels, derivation⟩
  · have same : (Cursor.ofTokens tokens).program.2.tokens = read := congrArg Cursor.tokens left
    have place := Cursor.location_eq_placeAt (Cursor.ofTokens tokens).program.2
    rw [same] at place
    exact place

/-- A parenthesis is missing before the semicolon of `x = (1; y++;`, and a comment does not
count. -/
theorem parseTokens_error_earliest_parenthesis :
    let tokens : List Token :=
      [⟨.identifier, "x", ⟨1, 1⟩⟩, ⟨.operator, "=", ⟨1, 3⟩⟩, ⟨.delimiter, "(", ⟨1, 5⟩⟩,
       ⟨.comment, "/* one */", ⟨1, 6⟩⟩, ⟨.number, "1", ⟨1, 15⟩⟩, ⟨.delimiter, ";", ⟨1, 16⟩⟩,
       ⟨.identifier, "y", ⟨1, 18⟩⟩, ⟨.operator, "++", ⟨1, 19⟩⟩, ⟨.delimiter, ";", ⟨1, 21⟩⟩]
    let read := tokens.filter fun token => token.kind ≠ .comment
    ∃ e, parseTokens tokens = .error e ∧ e.expected ≠ .fewerLevels ∧
      (Cursor.ofTokens tokens).program.2.position = 4 ∧ e.location = ⟨1, 16⟩ ∧
      (∃ more t levels, Grammar.Program (read.take 4 ++ more) t levels) ∧
      ¬∃ more t levels, Grammar.Program (read.take 5 ++ more) t levels := by
  intro tokens read
  have failed : parseTokens tokens = .error _ := rfl
  have position : (Cursor.ofTokens tokens).program.2.position = 4 := rfl
  obtain ⟨-, begun, earliest, -⟩ := parseTokens_error_earliest tokens _ failed
  rw [position] at begun earliest
  have unlimited : Expectation.exactly ")" ≠ .fewerLevels := nofun
  refine ⟨_, failed, unlimited, position, rfl, begun, ?_⟩
  obtain ⟨ends, -⟩ | ⟨-, none⟩ := earliest unlimited
  · cases ends
  · exact none

end Quadrupler
