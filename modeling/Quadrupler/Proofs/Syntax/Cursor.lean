import Quadrupler.Proofs.Syntax.PromptStatement
set_option autoImplicit false

/-!
# Where a cursor can be

A step takes tokens from the front only, and where it gets stuck it has closed no level that it
did not open.  That a step which succeeds has taken a token at all is known from the grammar, where
nothing but a program can be empty.  What is read from a cursor follows the steps, so the same is
true of the cursor.

So a cursor never leaves its tokens, however it is moved and whatever is read from it, and
there are never more levels open than a program may open.
-/

namespace Quadrupler

namespace Syntax

variable {free : Nat} {tokens : List Token}

/-! ## Steps that take a token -/

theorem simple_ne_nil {used : List Token} {t : Tree} {levels : Nat}
    (h : Grammar.Simple used t levels) : used ≠ [] := by
  obtain ⟨token, others, rfl, -⟩ := simple_begins h
  exact List.cons_ne_nil token others

theorem consumes_expression (free : Nat) : Consumes (expression free) :=
  consumes_of_sound (expression_sound free) fun h => simple_ne_nil (.expression h)

theorem consumes_simple (free : Nat) : Consumes (simple free) :=
  consumes_of_sound (simple_sound free) simple_ne_nil

theorem consumes_block (free : Nat) : Consumes (block free) :=
  consumes_of_sound (bracesRead free).block_sound fun h => statement_ne_nil (.block h)

/-- Statements in a row are read to the end. -/
theorem program_rest_eq_nil {here : Location} {t : Tree} {rest : List Token}
    (h : program here free tokens = .ok (t, rest)) : rest = [] := by
  obtain ⟨⟨ts, final⟩, read, made⟩ := bind_eq_ok_iff.mp h
  cases made
  obtain ⟨used, levels, -, -, -, ends⟩ :=
    readUntil_sound (bracesRead free).statement_sound statement_ne_nil read
  simpa using ends

end Syntax

/-! ## Cursors -/

namespace Cursor

open Syntax

variable {α : Type} {cursor after : Cursor} {step : Nat → Step α}

/-- From one cursor to the other it goes forward, and no level is closed. -/
structure Leads (cursor after : Cursor) : Prop where
  tokens_eq : after.tokens = cursor.tokens
  position_le : cursor.position ≤ after.position
  depth_le : cursor.depth ≤ after.depth
  inBounds : after.InBounds

/-! ## One reading -/

theorem read_eq_ok {x : α} (h : cursor.read step = (.ok x, after)) :
    ∃ rest, step cursor.free cursor.rest = .ok (x, rest) ∧ after = cursor.moveTo rest := by
  unfold read at h
  cases result : step cursor.free cursor.rest with
  | error stuck =>
    rw [result] at h
    cases h
  | ok read =>
    obtain ⟨y, rest⟩ := read
    rw [result] at h
    cases h
    exact ⟨rest, rfl, rfl⟩

theorem read_eq_error {e : SyntaxError} (h : cursor.read step = (.error e, after)) :
    ∃ stuck, step cursor.free cursor.rest = .error stuck ∧
      after = { cursor.moveTo stuck.rest with depth := nestingLimit - stuck.free } := by
  unfold read at h
  cases result : step cursor.free cursor.rest with
  | error stuck =>
    rw [result] at h
    cases h
    exact ⟨stuck, rfl, rfl⟩
  | ok read =>
    rw [result] at h
    cases h

/-- Before tokens that end those ahead, the cursor stands further on. -/
theorem position_moveTo {rest : List Token} (inside : cursor.position ≤ cursor.tokens.length)
    (suffix : rest <:+ cursor.rest) :
    cursor.position ≤ (cursor.moveTo rest).position ∧
      (cursor.moveTo rest).position + rest.length = cursor.tokens.length := by
  have ahead := suffix.length_le
  rw [Cursor.rest, List.length_drop] at ahead
  unfold moveTo
  dsimp only
  omega

theorem leads_of_ok {x : α} (bounds : cursor.InBounds)
    (steady : Steady cursor.free (step cursor.free)) (h : cursor.read step = (.ok x, after)) :
    cursor.Leads after ∧ after.depth = cursor.depth := by
  obtain ⟨rest, result, rfl⟩ := read_eq_ok h
  have suffix : rest <:+ cursor.rest := by
    have proceeds := steady cursor.rest
    rwa [result] at proceeds
  obtain ⟨forward, inside⟩ := position_moveTo bounds.position_le suffix
  exact ⟨⟨rfl, forward, Nat.le_refl _, ⟨Nat.le.intro inside, bounds.depth_le⟩⟩, rfl⟩

theorem leads_of_error {e : SyntaxError} (bounds : cursor.InBounds)
    (steady : Steady cursor.free (step cursor.free)) (h : cursor.read step = (.error e, after)) :
    cursor.Leads after := by
  obtain ⟨stuck, result, rfl⟩ := read_eq_error h
  have proceeds := steady cursor.rest
  rw [result] at proceeds
  obtain ⟨suffix, fewer⟩ := proceeds
  obtain ⟨forward, inside⟩ := position_moveTo bounds.position_le suffix
  have levels := bounds.at.depth_eq
  refine ⟨rfl, forward, ?_, Nat.le.intro inside, Nat.sub_le _ _⟩
  rw [levels]
  exact Nat.sub_le_sub_left fewer nestingLimit

theorem position_lt_of_ok {x : α} (bounds : cursor.InBounds)
    (consumes : Consumes (step cursor.free)) (h : cursor.read step = (.ok x, after)) :
    cursor.position < after.position := by
  obtain ⟨rest, result, rfl⟩ := read_eq_ok h
  have shorter := consumes _ _ _ result
  have inside := bounds.position_le
  rw [Cursor.rest, List.length_drop] at shorter
  unfold moveTo
  dsimp only
  omega

theorem position_eq_of_program {t : Tree} (bounds : cursor.InBounds)
    (h : cursor.program = (.ok t, after)) : after.position = cursor.tokens.length := by
  rw [bounds.program_eq_read] at h
  obtain ⟨rest, result, rfl⟩ := read_eq_ok h
  rw [program_rest_eq_nil result]
  rfl

/-! ## Everything a cursor can do -/

/-- Everything that can be read. -/
def readers : List (Cursor → Except SyntaxError Tree × Cursor) :=
  [expression, simple, statement, block, program]

/-- What can become of the cursor before the first token.  Looking ahead moves nothing, nor does
a single token that is not found or a level that cannot be opened; a reading that fails does. -/
inductive Reachable (tokens : List Token) : Cursor → Prop where
  | start : Reachable tokens (ofTokens tokens)
  | advance {cursor : Cursor} : Reachable tokens cursor → Reachable tokens cursor.advance
  | retreat {cursor : Cursor} : Reachable tokens cursor → Reachable tokens cursor.retreat
  | enter {cursor after : Cursor} :
      Reachable tokens cursor → cursor.enter = .ok after → Reachable tokens after
  | exit {cursor : Cursor} (levels : Nat) :
      Reachable tokens cursor → Reachable tokens (cursor.exit levels)
  | accept {cursor after : Cursor} {kind : TokenKind} {text : String} :
      Reachable tokens cursor → cursor.accept? kind text = some after → Reachable tokens after
  | expect {cursor after : Cursor} {kind : TokenKind} {text : String} :
      Reachable tokens cursor → cursor.expect kind text = .ok after → Reachable tokens after
  | read {cursor : Cursor} {reader : Cursor → Except SyntaxError Tree × Cursor} :
      reader ∈ readers → Reachable tokens cursor → Reachable tokens (reader cursor).2

theorem leads_of_mem_readers {reader : Cursor → Except SyntaxError Tree × Cursor}
    (bounds : cursor.InBounds) (member : reader ∈ readers) : cursor.Leads (reader cursor).2 := by
  have leads {step : Nat → Step Tree} (steady : ∀ free, Steady free (step free)) :
      cursor.Leads (cursor.read step).2 := by
    rcases result : cursor.read step with ⟨_ | t, after⟩
    · exact leads_of_error bounds (steady _) result
    · exact (leads_of_ok bounds (steady _) result).1
  simp only [readers, List.mem_cons, List.not_mem_nil, or_false] at member
  rcases member with rfl | rfl | rfl | rfl | rfl
  · exact bounds.expression_eq_read ▸ leads fun free => (expression_steady free).2
  · exact bounds.simple_eq_read ▸ leads fun _ => simple_steady
  · exact bounds.statement_eq_read ▸ leads statement_steady
  · exact bounds.block_eq_read ▸ leads fun free => (braces_steady free).1
  · exact bounds.program_eq_read ▸ leads (program_steady _)

theorem tokens_advance (cursor : Cursor) : cursor.advance.tokens = cursor.tokens := by
  unfold advance
  split
  · rfl
  · rfl

theorem inBounds_advance (bounds : cursor.InBounds) : cursor.advance.InBounds := by
  unfold advance
  split
  · exact bounds
  · rename_i ahead
    refine ⟨?_, bounds.depth_le⟩
    have more : cursor.rest ≠ [] := by simpa [atEnd] using ahead
    exact Nat.lt_of_not_le fun past => more (List.drop_eq_nil_iff.mpr past)

theorem inBounds_enter (bounds : cursor.InBounds) (h : cursor.enter = .ok after) :
    after.InBounds ∧ after.tokens = cursor.tokens := by
  unfold enter at h
  split at h
  · cases h
  · rename_i more
    cases h
    exact ⟨⟨bounds.position_le, Nat.lt_of_not_le more⟩, rfl⟩

theorem inBounds_accept? {kind : TokenKind} {text : String} (bounds : cursor.InBounds)
    (h : cursor.accept? kind text = some after) :
    after.InBounds ∧ after.tokens = cursor.tokens := by
  unfold accept? at h
  split at h
  · cases h
    exact ⟨inBounds_advance bounds, tokens_advance cursor⟩
  · cases h

theorem inBounds_of_reachable {tokens : List Token} (h : Reachable tokens cursor) :
    cursor.InBounds ∧ cursor.tokens = Token.significant tokens := by
  induction h with
  | start => exact ⟨inBounds_ofTokens tokens, rfl⟩
  | advance _ ih => exact ⟨inBounds_advance ih.1, (tokens_advance _).trans ih.2⟩
  | retreat _ ih =>
    refine ⟨⟨?_, ih.1.depth_le⟩, ih.2⟩
    exact Nat.le_trans (Nat.sub_le _ 1) ih.1.position_le
  | enter _ opened ih =>
    obtain ⟨bounds, same⟩ := inBounds_enter ih.1 opened
    exact ⟨bounds, same.trans ih.2⟩
  | exit levels _ ih =>
    refine ⟨⟨ih.1.position_le, ?_⟩, ih.2⟩
    exact Nat.le_trans (Nat.sub_le _ levels) ih.1.depth_le
  | accept _ found ih =>
    obtain ⟨bounds, same⟩ := inBounds_accept? ih.1 found
    exact ⟨bounds, same.trans ih.2⟩
  | expect _ found ih =>
    unfold expect at found
    split at found
    · rename_i accepted
      cases found
      obtain ⟨bounds, same⟩ := inBounds_accept? ih.1 accepted
      exact ⟨bounds, same.trans ih.2⟩
    · cases found
  | read member _ ih =>
    have leads := leads_of_mem_readers ih.1 member
    exact ⟨leads.inBounds, leads.tokens_eq.trans ih.2⟩

/-- Wherever a cursor has been moved, it stands among the tokens with at most 256 levels open.  From
there, whatever is read takes a token at least and leaves as many levels open as there were; a
program takes all tokens; and a reading that fails has not gone back nor closed a level. -/
theorem reachable_discipline (tokens : List Token) (cursor : Cursor)
    (h : Reachable tokens cursor) :
    cursor.tokens = (tokens.filter fun token => token.kind ≠ .comment) ∧
      cursor.position ≤ cursor.tokens.length ∧ cursor.depth ≤ 256 ∧
      (∀ reader ∈ [expression, simple, statement, block], ∀ t after,
        reader cursor = (.ok t, after) →
          after.depth = cursor.depth ∧ cursor.position < after.position) ∧
      (∀ t after, cursor.program = (.ok t, after) →
        after.depth = cursor.depth ∧ after.position = cursor.tokens.length) ∧
      ∀ reader ∈ [expression, simple, statement, block, program], ∀ e after,
        reader cursor = (.error e, after) →
          cursor.position ≤ after.position ∧ cursor.depth ≤ after.depth ∧ after.depth ≤ 256 := by
  obtain ⟨bounds, same⟩ := inBounds_of_reachable h
  have taken {step : Nat → Step Tree} (steady : ∀ free, Steady free (step free))
      (consumes : ∀ free, Consumes (step free)) (t : Tree) (after : Cursor)
      (read : cursor.read step = (.ok t, after)) :
      after.depth = cursor.depth ∧ cursor.position < after.position :=
    ⟨(leads_of_ok bounds (steady _) read).2, position_lt_of_ok bounds (consumes _) read⟩
  refine ⟨same, bounds.position_le, bounds.depth_le, ?_, ?_, ?_⟩
  · intro reader member
    simp only [List.mem_cons, List.not_mem_nil, or_false] at member
    rcases member with rfl | rfl | rfl | rfl
    · rw [bounds.expression_eq_read]
      exact taken (fun free => (expression_steady free).2) consumes_expression
    · rw [bounds.simple_eq_read]
      exact taken (fun _ => simple_steady) consumes_simple
    · rw [bounds.statement_eq_read]
      exact taken statement_steady consumes_statement
    · rw [bounds.block_eq_read]
      exact taken (fun free => (braces_steady free).1) consumes_block
  · intro t after read
    refine ⟨?_, position_eq_of_program bounds read⟩
    rw [bounds.program_eq_read] at read
    exact (leads_of_ok bounds (program_steady _ _) read).2
  · intro reader member e after failed
    have leads := leads_of_mem_readers bounds member
    rw [failed] at leads
    exact ⟨leads.position_le, leads.depth_le, leads.inBounds.depth_le⟩

/-- A block fails at the semicolon of `\x7b(1 + 2;` and leaves the levels of its brace and of the
parenthesis open.  One token back, the number is read inside of both. -/
theorem reachable_discipline_unclosed :
    let tokens : List Token :=
      [⟨.delimiter, "\x7b", ⟨1, 1⟩⟩, ⟨.delimiter, "(", ⟨1, 2⟩⟩, ⟨.number, "1", ⟨1, 3⟩⟩,
       ⟨.operator, "+", ⟨1, 5⟩⟩, ⟨.number, "2", ⟨1, 7⟩⟩, ⟨.delimiter, ";", ⟨1, 8⟩⟩]
    let failed := (ofTokens tokens).block
    let cursor := failed.2.retreat
    Reachable tokens cursor ∧ failed.1.isOk = false ∧ failed.2.position = 5 ∧
      (ofTokens tokens).depth ≤ failed.2.depth ∧ cursor.depth = 2 ∧
      ∃ t after, cursor.expression = (.ok t, after) ∧ after.depth = 2 ∧ 4 < after.position := by
  intro tokens failed cursor
  have reads : block ∈ readers := by simp [readers]
  have there : Reachable tokens (block (ofTokens tokens)).2 := .read reads .start
  have failure : block (ofTokens tokens) =
      (.error ⟨.exactly ")", some ⟨.delimiter, ";", ⟨1, 8⟩⟩, ⟨1, 8⟩⟩, ⟨tokens, 5, 2⟩) := by
    decide +kernel
  have number : expression ⟨tokens, 4, 2⟩ = (.ok (.number "2" ⟨1, 7⟩), ⟨tokens, 5, 2⟩) := by
    decide +kernel
  have back : cursor = ⟨tokens, 4, 2⟩ := congrArg (fun read => read.2.retreat) failure
  obtain ⟨-, -, -, -, -, fails⟩ := reachable_discipline tokens _ .start
  obtain ⟨-, opened, -⟩ := fails block (by simp) _ _ failure
  obtain ⟨-, -, -, succeeds, -⟩ := reachable_discipline tokens cursor there.retreat
  rw [back] at succeeds
  obtain ⟨restored, forward⟩ := succeeds expression (by simp) _ _ number
  refine ⟨there.retreat, ?_⟩
  rw [back, show failed = _ from failure]
  exact ⟨rfl, rfl, opened, rfl, _, _, number, restored, forward⟩

end Cursor

end Quadrupler
