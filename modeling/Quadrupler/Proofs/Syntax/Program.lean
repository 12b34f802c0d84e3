import Quadrupler.Proofs.Syntax.Parse
import Quadrupler.Proofs.Syntax.Statement
set_option autoImplicit false

/-!
# Programs are read as the grammar derives them

Blocks and arms take a level each, and the induction that closes the circle between them
and statements is on the free levels.  The main statement is that the tokens of a text are
accepted with a tree if and only if the grammar derives the tree from them within the limit
of nesting.
-/

namespace Quadrupler

namespace Syntax

open Grammar

variable {free : Nat}

/-! ## Rows of statements and of arms -/

theorem statements_iff_row {tokens : List Token} {ts : List Tree} {levels : Nat} :
    Statements tokens ts levels ↔ Row Statement tokens ts levels := by
  constructor
  · intro h
    induction ts generalizing tokens levels with
    | nil =>
      cases h with
      | nil => exact .nil
    | cons t ts ih =>
      cases h with
      | cons first others => exact .cons first (ih others)
  · intro h
    induction h with
    | nil => exact .nil
    | cons first _ ih => exact .cons first ih

/-- One arm of a switch. -/
inductive Arm : Derivation Tree where
  | caseArm {word colon : Token} {test body : List Token} {e : Tree} {ts : List Tree} {k m : Nat} :
      word.is .keyword "case" = true → colon.is .delimiter ":" = true → Expression test e k →
      Statements body ts m →
      Arm (word :: test ++ colon :: body)
        { kind := .caseArm, location := word.location, left := some e,
          right := some (.block ts word.location) } (max k m)
  | defaultArm {word colon : Token} {body : List Token} {ts : List Tree} {m : Nat} :
      word.is .keyword "default" = true → colon.is .delimiter ":" = true → Statements body ts m →
      Arm (word :: colon :: body)
        { kind := .defaultArm, location := word.location,
          right := some (.block ts word.location) } m

theorem arms_iff_row {tokens : List Token} {ts : List Tree} {levels : Nat} :
    Arms tokens ts levels ↔ Row Arm tokens ts levels := by
  constructor
  · intro h
    induction ts generalizing tokens levels with
    | nil =>
      cases h with
      | nil => exact .nil
    | cons t ts ih =>
      cases h with
      | caseArm hword hcolon he hbody others =>
        rw [← Nat.max_assoc]
        exact .cons (.caseArm hword hcolon he hbody) (ih others)
      | defaultArm hword hcolon hbody others =>
        exact .cons (.defaultArm hword hcolon hbody) (ih others)
  · intro h
    induction h with
    | nil => exact .nil
    | cons first _ ih =>
      cases first with
      | caseArm hword hcolon he hbody =>
        rw [Nat.max_assoc]
        exact .caseArm hword hcolon he hbody ih
      | defaultArm hword hcolon hbody => exact .defaultArm hword hcolon hbody ih

/-- The statements in the body of an arm end here. -/
def ArmEnds (tokens : List Token) : Prop := (tokens.isEmpty || closesArm tokens) = true

theorem noElse_of_armEnds {tokens : List Token} (h : ArmEnds tokens) : NoElse tokens := by
  cases tokens with
  | nil => rfl
  | cons token rest =>
    rw [NoElse, begins_cons, Bool.eq_false_iff]
    intro isElse
    obtain ⟨hkind, htext⟩ := Token.is_iff.mp isElse
    simp [ArmEnds, closesArm, closes, Token.is, hkind, htext] at h

/-- A token that begins a statement neither ends one nor goes on with one. -/
def Begins (token : Token) : Prop :=
  ∀ rest, closesArm (token :: rest) = false ∧ NoElse (token :: rest)

theorem begins_keyword {token : Token} {text : String} (h : token.is .keyword text = true)
    (differs : text ≠ "case" ∧ text ≠ "default" ∧ text ≠ "else") : Begins token := by
  obtain ⟨hkind, rfl⟩ := Token.is_iff.mp h
  intro rest
  simp [closesArm, closes, NoElse, Token.is, hkind, differs]

theorem begins_delimiter {token : Token} {text : String} (h : token.is .delimiter text = true)
    (differs : text ≠ closeBrace) : Begins token := by
  obtain ⟨hkind, rfl⟩ := Token.is_iff.mp h
  intro rest
  simp [closesArm, closes, NoElse, Token.is, hkind, differs]

theorem begins_kind {token : Token} (keyword : token.kind ≠ .keyword)
    (delimiter : token.kind ≠ .delimiter) : Begins token := by
  intro rest
  simp [closesArm, closes, NoElse, Token.is, keyword, delimiter]

theorem statement_begins {used : List Token} {t : Tree} {levels : Nat}
    (h : Statement used t levels) : ∃ token others, used = token :: others ∧ Begins token := by
  cases h with
  | returning hword _ _ => exact ⟨_, _, rfl, begins_keyword hword (by decide)⟩
  | ifThen hword _ _ => exact ⟨_, _, rfl, begins_keyword hword (by decide)⟩
  | ifElse hword _ _ _ _ => exact ⟨_, _, rfl, begins_keyword hword (by decide)⟩
  | whileLoop hword _ _ => exact ⟨_, _, rfl, begins_keyword hword (by decide)⟩
  | forLoop hword _ _ _ _ _ _ _ _ => exact ⟨_, _, rfl, begins_keyword hword (by decide)⟩
  | doLoop hword _ _ _ _ => exact ⟨_, _, rfl, begins_keyword hword (by decide)⟩
  | switch hword _ _ _ _ => exact ⟨_, _, rfl, begins_keyword hword (by decide)⟩
  | block hb =>
    cases hb with
    | mk hleft _ _ => exact ⟨_, _, rfl, begins_delimiter hleft (by decide)⟩
  | empty hsemicolon => exact ⟨_, _, rfl, begins_delimiter hsemicolon (by decide)⟩
  | simple _ ht =>
    obtain ⟨token, others, rfl, hkind | hkind | hopen⟩ := simple_begins ht
    · exact ⟨_, _, rfl, begins_kind (by simp [hkind]) (by simp [hkind])⟩
    · exact ⟨_, _, rfl, begins_kind (by simp [hkind]) (by simp [hkind])⟩
    · exact ⟨_, _, rfl, begins_delimiter hopen (by decide)⟩

theorem statement_ne_nil {used : List Token} {t : Tree} {levels : Nat}
    (h : Statement used t levels) : used ≠ [] := by
  obtain ⟨token, others, rfl, -⟩ := statement_begins h
  exact List.cons_ne_nil _ _

/-! ## Arms -/

theorem arm_sound {step : Step Tree} (statements : Sound free Statement step) :
    Sound free Arm (arm free step) := by
  intro tokens t rest h
  rw [arm.eq_def] at h
  split at h
  · simp at h
  rename_i word after
  split at h
  · rename_i hword
    obtain ⟨⟨constant, middle⟩, read, h⟩ := bind_eq_ok_iff.mp h
    obtain ⟨behind, colon, h⟩ := bind_eq_ok_iff.mp h
    obtain ⟨⟨body, final⟩, readBody, h⟩ := bind_eq_ok_iff.mp h
    cases h
    obtain ⟨used, k, rfl, he, hk⟩ := expression_sound free read
    obtain ⟨token, rfl, htoken⟩ := expect_eq_ok_iff.mp colon
    obtain ⟨used', m, rfl, hbody, hm, -⟩ := readUntil_sound statements statement_ne_nil readBody
    exact ⟨word :: used ++ token :: used', max k m, by simp,
      .caseArm hword htoken he (statements_iff_row.mpr hbody), by omega⟩
  · split at h
    · rename_i hword
      obtain ⟨behind, colon, h⟩ := bind_eq_ok_iff.mp h
      obtain ⟨⟨body, final⟩, readBody, h⟩ := bind_eq_ok_iff.mp h
      cases h
      obtain ⟨token, rfl, htoken⟩ := expect_eq_ok_iff.mp colon
      obtain ⟨used', m, rfl, hbody, hm, -⟩ := readUntil_sound statements statement_ne_nil readBody
      exact ⟨word :: token :: used', m, by simp,
        .defaultArm hword htoken (statements_iff_row.mpr hbody), hm⟩
    · simp at h

theorem arm_complete {step : Step Tree} (statements : Complete free Statement NoElse step) :
    Complete free Arm ArmEnds (arm free step) := by
  intro used t levels rest h hlevels ends
  have body {tokens : List Token} {ts : List Tree} {m : Nat} (hts : Statements tokens ts m)
      (hm : m ≤ free) : readUntil closesArm step (tokens ++ rest) = .ok (ts, rest) :=
    readUntil_complete statements statement_begins (statements_iff_row.mp hts) hm ends
      (noElse_of_armEnds ends)
  cases h with
  | @caseArm word colon test tokens e ts k m hword hcolon he hts =>
    have read : expression free (test ++ colon :: (tokens ++ rest)) =
        .ok (e, colon :: (tokens ++ rest)) :=
      expression_complete free he (by omega) ((delimited_cons hcolon _).noOperator _)
    simp [arm, hword, read, ok_bind, expect_cons hcolon, body hts (by omega)]
  | @defaultArm word colon tokens ts m hword hcolon hts =>
    have notCase : word.is .keyword "case" = false := by
      simp [Token.is, (Token.is_iff.mp hword).2]
    simp [arm, notCase, hword, ok_bind, expect_cons hcolon, body hts hlevels]

theorem arm_begins {used : List Token} {t : Tree} {levels : Nat} (h : Arm used t levels) :
    ∃ token others, used = token :: others ∧
      ∀ rest, closes (token :: rest) = false ∧ ArmEnds (token :: rest) := by
  cases h with
  | caseArm hword _ _ _ =>
    obtain ⟨hkind, htext⟩ := Token.is_iff.mp hword
    exact ⟨_, _, rfl, fun rest => by simp [ArmEnds, closesArm, closes, Token.is, hkind, htext]⟩
  | defaultArm hword _ _ =>
    obtain ⟨hkind, htext⟩ := Token.is_iff.mp hword
    exact ⟨_, _, rfl, fun rest => by simp [ArmEnds, closesArm, closes, Token.is, hkind, htext]⟩

theorem arm_ne_nil {used : List Token} {t : Tree} {levels : Nat} (h : Arm used t levels) :
    used ≠ [] := by
  obtain ⟨token, others, rfl, -⟩ := arm_begins h
  exact List.cons_ne_nil _ _

/-! ## Blocks and arms in braces -/

/-- Blocks and arms are read as they are derived with this many free levels. -/
structure BracesRead (free : Nat) : Prop where
  block_sound : Sound free Block (block free)
  block_complete : Complete free Block anything (block free)
  arms_sound : Sound free EnclosedArms (arms free)
  arms_complete : Complete free EnclosedArms anything (arms free)

theorem BracesRead.statement_sound (braces : BracesRead free) :
    Sound free Statement (statement free) :=
  statementWith_sound braces.block_sound braces.arms_sound

theorem BracesRead.statement_complete (braces : BracesRead free) :
    Complete free Statement NoElse (statement free) :=
  statementWith_complete braces.block_complete braces.arms_complete

theorem block_sound_succ (braces : BracesRead free) :
    Sound (free + 1) Block (block (free + 1)) := by
  intro tokens t rest h
  rw [block.eq_def] at h
  simp only at h
  split at h
  · simp at h
  rename_i left after
  split at h
  · rename_i hleft
    obtain ⟨⟨ts, middle⟩, read, h⟩ := bind_eq_ok_iff.mp h
    obtain ⟨final, closed, h⟩ := bind_eq_ok_iff.mp h
    cases h
    obtain ⟨used, levels, rfl, hts, hlevels, -⟩ :=
      readUntil_sound braces.statement_sound statement_ne_nil read
    obtain ⟨right, rfl, hright⟩ := expect_eq_ok_iff.mp closed
    exact ⟨left :: used ++ [right], levels + 1, by simp,
      .mk hleft hright (statements_iff_row.mpr hts), by omega⟩
  · simp at h

theorem block_complete_succ (braces : BracesRead free) :
    Complete (free + 1) Block anything (block (free + 1)) := by
  intro used t levels rest h hlevels _
  cases h with
  | @mk left right tokens ts n hleft hright hts =>
    have stops : closes (right :: rest) = true := hright
    have ends : ArmEnds (right :: rest) := by simp [ArmEnds, closesArm, stops]
    have read : readUntil closes (statement free) (tokens ++ right :: rest) =
        .ok (ts, right :: rest) := by
      refine readUntil_complete braces.statement_complete (fun ht => ?_)
        (statements_iff_row.mp hts) (by omega) (by simp [stops]) (noElse_of_armEnds ends)
      obtain ⟨token, others, same, first⟩ := statement_begins ht
      refine ⟨token, others, same, fun rest => ⟨?_, (first rest).2⟩⟩
      exact (Bool.or_eq_false_iff.mp (first rest).1).2
    rw [statement] at read
    rw [block.eq_def]
    simp [openBrace, closeBrace, Tree.block, hleft, read, ok_bind, expect_cons hright]

theorem arms_sound_succ (braces : BracesRead free) :
    Sound (free + 1) EnclosedArms (arms (free + 1)) := by
  intro tokens ts rest h
  rw [arms.eq_def] at h
  obtain ⟨after, opened, h⟩ := bind_eq_ok_iff.mp h
  obtain ⟨⟨us, middle⟩, read, h⟩ := bind_eq_ok_iff.mp h
  obtain ⟨final, closed, h⟩ := bind_eq_ok_iff.mp h
  cases h
  obtain ⟨left, rfl, hleft⟩ := expect_eq_ok_iff.mp opened
  obtain ⟨used, levels, rfl, hts, hlevels, -⟩ :=
    readUntil_sound (arm_sound braces.statement_sound) arm_ne_nil read
  obtain ⟨right, rfl, hright⟩ := expect_eq_ok_iff.mp closed
  exact ⟨left :: used ++ [right], levels + 1, by simp,
    .mk hleft hright (arms_iff_row.mpr hts), by omega⟩

theorem arms_complete_succ (braces : BracesRead free) :
    Complete (free + 1) EnclosedArms anything (arms (free + 1)) := by
  intro used ts levels rest h hlevels _
  cases h with
  | @mk left right tokens _ n hleft hright hts =>
    have stops : closes (right :: rest) = true := hright
    have ends : ArmEnds (right :: rest) := by simp [ArmEnds, closesArm, stops]
    have read : readUntil closes (arm free (statement free)) (tokens ++ right :: rest) =
        .ok (ts, right :: rest) :=
      readUntil_complete (arm_complete braces.statement_complete) arm_begins
        (arms_iff_row.mp hts) (by omega) (by simp [stops]) ends
    rw [statement] at read
    rw [arms.eq_def]
    simp [expect_cons hleft, read, ok_bind, expect_cons hright]

theorem bracesRead_zero : BracesRead 0 where
  block_sound h := by simp [block] at h
  block_complete h hlevels _ := by
    cases h
    simp at hlevels
  arms_sound h := by simp [arms] at h
  arms_complete h hlevels _ := by
    cases h
    simp at hlevels

theorem bracesRead (free : Nat) : BracesRead free := by
  induction free with
  | zero => exact bracesRead_zero
  | succ free ih =>
    exact ⟨block_sound_succ ih, block_complete_succ ih, arms_sound_succ ih, arms_complete_succ ih⟩

/-! ## Programs -/

theorem eq_nil_of_row {used : List Token} {levels : Nat} (h : Row Statement used [] levels) :
    used = [] := by
  cases h
  rfl

/-- Where a program without tokens begins matters, because its tree stands there. -/
theorem program_eq_ok_iff {here : Location} {tokens rest : List Token} {t : Tree}
    (start : tokens = [] → here = .start) :
    program here free tokens = .ok (t, rest) ↔
      rest = [] ∧ ∃ levels, levels ≤ free ∧ Program tokens t levels := by
  have tree {ts : List Tree} {used : List Token} {levels : Nat} (h : Row Statement used ts levels)
      (same : tokens = used) : (Tree.row .separator ts).getD (.block [] here) =
        (Tree.row .separator ts).getD { kind := .block, location := .start, statements := [] } := by
    cases ts with
    | nil =>
      rw [start (same.trans (eq_nil_of_row h))]
      rfl
    | cons t ts => rfl
  constructor
  · intro h
    obtain ⟨⟨ts, final⟩, read, h⟩ := bind_eq_ok_iff.mp h
    obtain ⟨used, levels, same, hts, hlevels, ends⟩ :=
      readUntil_sound (bracesRead free).statement_sound statement_ne_nil read
    obtain rfl : final = [] := by simpa using ends
    rw [List.append_nil] at same
    cases h
    rw [tree hts same]
    exact ⟨rfl, levels, hlevels, same ▸ .mk (statements_iff_row.mpr hts)⟩
  · rintro ⟨rfl, levels, hlevels, ⟨hts⟩⟩
    rename_i ts
    have hts := statements_iff_row.mp hts
    have read : readUntil (fun _ => false) (statement free) (tokens ++ []) = .ok (ts, []) := by
      refine readUntil_complete (bracesRead free).statement_complete (fun ht => ?_) hts hlevels
        rfl rfl
      obtain ⟨token, others, same, first⟩ := statement_begins ht
      exact ⟨token, others, same, fun rest => ⟨rfl, (first rest).2⟩⟩
    rw [List.append_nil] at read
    rw [program, read, ok_bind, ← tree hts rfl]

end Syntax

open Syntax

/-- The tokens without comments. -/
abbrev Token.significant (tokens : List Token) : List Token :=
  tokens.filter fun token => token.kind ≠ .comment

theorem Cursor.location_ofTokens {tokens : List Token} (none : Token.significant tokens = []) :
    (Cursor.ofTokens tokens).location = .start := by
  have empty : Cursor.ofTokens tokens = ⟨[], 0, 0⟩ :=
    congrArg (fun tokens => Cursor.mk tokens 0 0) none
  rw [empty]
  rfl

/-- The parser does what the step for programs says of all tokens, with all levels free. -/
theorem parseTokens_eq_settle (tokens : List Token) :
    parseTokens tokens = ((Cursor.ofTokens tokens).settle
      (program (Cursor.ofTokens tokens).location nestingLimit (Token.significant tokens))).1 := by
  have bounds := Cursor.inBounds_ofTokens tokens
  have ahead : (Cursor.ofTokens tokens).rest = Token.significant tokens := List.drop_zero
  rw [parseTokens, bounds.program_eq_read, Cursor.read, ahead]
  rfl

theorem parseTokens_eq_ok_iff_program {tokens : List Token} {t : Tree} :
    parseTokens tokens = .ok t ↔
      ∃ rest, program (Cursor.ofTokens tokens).location nestingLimit (Token.significant tokens) =
        .ok (t, rest) := by
  rw [parseTokens_eq_settle]
  cases program (Cursor.ofTokens tokens).location nestingLimit (Token.significant tokens) with
  | error stuck => simp [Cursor.settle]
  | ok result => simp [Cursor.settle, Prod.ext_iff]

theorem exists_program_of_parseTokens {tokens : List Token} {t : Tree}
    (h : parseTokens tokens = .ok t) :
    ∃ levels, levels ≤ nestingLimit ∧ Grammar.Program (Token.significant tokens) t levels := by
  obtain ⟨rest, read⟩ := parseTokens_eq_ok_iff_program.mp h
  exact ((program_eq_ok_iff Cursor.location_ofTokens).mp read).2

theorem parseTokens_of_program {tokens : List Token} {t : Tree} {levels : Nat}
    (enough : levels ≤ nestingLimit) (h : Grammar.Program (Token.significant tokens) t levels) :
    parseTokens tokens = .ok t :=
  parseTokens_eq_ok_iff_program.mpr
    ⟨[], (program_eq_ok_iff Cursor.location_ofTokens).mpr ⟨rfl, levels, enough, h⟩⟩

/-- Reading accepts exactly what the grammar derives within the limit of nesting, comments
left out, and gives the tree that is derived. -/
theorem parseTokens_eq_ok_iff (tokens : List Token) (t : Tree) :
    parseTokens tokens = .ok t ↔
      ∃ levels, levels ≤ 256 ∧
        Grammar.Program (tokens.filter fun token => token.kind ≠ .comment) t levels := by
  constructor
  · exact exists_program_of_parseTokens
  · rintro ⟨levels, enough, h⟩
    exact parseTokens_of_program enough h

end Quadrupler
