import Quadrupler.Proofs.Lowering.Numbering
import Quadrupler.Proofs.Lowering.Renumber
import Quadrupler.Proofs.Lowering.Simplify
import Quadrupler.Proofs.Syntax.Faultless
import Quadrupler.Proofs.Syntax.Place
set_option autoImplicit false

/-!
# Compiling two texts in a row

The tokens of the second text stand elsewhere, which its code does not show; its statements
follow those of the first; and its code is lowered after that of the first, which raises its
names.
-/

namespace Quadrupler

namespace Lowering

open Quadrupler.Tree

/-! ## Code does not show places -/

/-- The piece with every tree in it moved to the start of the text. -/
def Piece.unplaced : Piece → Piece
  | .statement t => .statement t.unplaced
  | .slot t => .slot (t.map Tree.unplaced)
  | .statements ts => .statements (ts.map Tree.unplaced)
  | .loop test body advance => .loop test.unplaced body.unplaced (advance.map Tree.unplaced)
  | .arms value done ts drawn => .arms value done (ts.map Tree.unplaced) drawn

theorem EmitsValue.unplaced {t : Tree} {c c' : Counters} {value : Operand} {code : Listing}
    (h : EmitsValue t c value code c') : EmitsValue t.unplaced c value code c' := by
  induction h with
  | number => exact .number
  | identifier => exact .identifier
  | binary _ _ ihLeft ihRight => exact .binary ihLeft ihRight

theorem Companions.unplaced {others : List Tree} (h : Companions others) :
    Companions (others.map Tree.unplaced) ∧
      elseBody? (others.map Tree.unplaced) = (elseBody? others).map Tree.unplaced := by
  cases h with
  | none => exact ⟨.none, rfl⟩
  | one => exact ⟨.one, rfl⟩

theorem Emits.unplaced {piece : Piece} {c c' : Counters} {code : Listing}
    (h : Emits piece c code c') : Emits piece.unplaced c code c' := by
  induction h with
  | assign he => exact .assign he.unplaced
  | step => exact .step
  | returning he => exact .returning he.unplaced
  | ifThen hothers htest _ _ ihBody ihOther =>
    rw [Piece.unplaced, unplaced_mk]
    rw [Piece.unplaced, ← hothers.unplaced.2] at ihOther
    exact .ifThen hothers.unplaced.1 htest.unplaced ihBody ihOther
  | whileLoop _ ih => exact .whileLoop ih
  | forLoop _ _ ihFirst ihLoop => exact .forLoop ihFirst ihLoop
  | doLoop _ htest ihBody => exact .doLoop ihBody htest.unplaced
  | switch he _ ihArms =>
    rw [Piece.unplaced, unplaced_mk]
    exact .switch he.unplaced ihArms
  | @row t _ _ _ _ _ hkind _ _ ihLeft ihRight =>
    obtain ⟨kind, p, left, right, ss⟩ := t
    rw [Piece.unplaced, unplaced_mk]
    exact .row hkind ihLeft ihRight
  | block _ ih =>
    rw [Piece.unplaced, unplaced_mk]
    exact .block ih
  | empty => exact .empty
  | expression he => exact .expression he.unplaced
  | noSlot => exact .noSlot
  | slot _ ih => exact .slot ih
  | noStatements => exact .noStatements
  | statements _ _ ihFirst ihOthers => exact .statements ihFirst ihOthers
  | loop htest _ _ ihBody ihAdvance => exact .loop htest.unplaced ihBody ihAdvance
  | noArms => exact .noArms
  | caseArm he _ _ ihBody ihOthers => exact .caseArm he.unplaced ihBody ihOthers
  | defaultArm _ _ ihBody ihOthers => exact .defaultArm ihBody ihOthers

end Lowering

open Lowering

/-- Trees that differ in places only have the same code. -/
theorem lower_eq_of_unplaced {t u : Tree} {a b : Listing} (same : t.unplaced = u.unplaced)
    (ha : lower t = .ok a) (hb : lower u = .ok b) : a = b := by
  obtain ⟨c, hc⟩ := lower_eq_ok_iff.mp ha
  obtain ⟨c', hc'⟩ := lower_eq_ok_iff.mp hb
  have left := hc.unplaced
  have right := hc'.unplaced
  rw [Piece.unplaced, same] at left
  have code := (succeeds_of_emits left).symm.trans (succeeds_of_emits right)
  injection code

/-! ## Statements of two programs -/

theorem Syntax.statements_append {tokens tokens' : List Token} {ts us : List Tree} {m n : Nat}
    (h : Grammar.Statements tokens ts m) (h' : Grammar.Statements tokens' us n) :
    Grammar.Statements (tokens ++ tokens') (ts ++ us) (max m n) := by
  induction ts generalizing tokens m with
  | nil =>
    cases h
    simpa using h'
  | cons t ts ih =>
    cases h with
    | cons first others =>
      rw [List.append_assoc, Nat.max_assoc]
      exact .cons first (ih others)

/-- The code of what is read is that of its statements. -/
theorem exists_lower_iff_statements {tokens : List Token} {listing : Listing} :
    (∃ t, parseTokens tokens = .ok t ∧ lower t = .ok listing) ↔
      ∃ ts levels c, levels ≤ Syntax.nestingLimit ∧
        Syntax.Grammar.Statements (Token.significant tokens) ts levels ∧
        statements ts .zero = ⟨.ok (), listing, c⟩ := by
  have program (ts : List Tree) :
      statement ((Tree.row .separator ts).getD
        { kind := .block, location := .start, statements := [] }) = statements ts := by
    rw [← slot_row (.inl rfl)]
    cases Tree.row .separator ts with
    | none => simp [statement, statements, slot]
    | some t => simp [slot]
  constructor
  · rintro ⟨t, read, lowered⟩
    obtain ⟨levels, enough, ⟨derived⟩⟩ := exists_program_of_parseTokens read
    obtain ⟨c, emitted⟩ := lower_eq_ok_iff_statement.mp lowered
    rw [program] at emitted
    exact ⟨_, levels, c, enough, derived, emitted⟩
  · rintro ⟨ts, levels, c, enough, derived, emitted⟩
    rw [← program] at emitted
    exact ⟨_, parseTokens_of_program enough (.mk derived),
      lower_eq_ok_iff_statement.mpr ⟨c, emitted⟩⟩

/-- Code of statements that follow others has its names raised by as many as occur before. -/
theorem statements_append_eq {ts us : List Tree} {first second : Listing} {c c' : Counters}
    (h : statements ts .zero = ⟨.ok (), first, c⟩)
    (h' : statements us .zero = ⟨.ok (), second, c'⟩) :
    statements (ts ++ us) .zero = ⟨.ok (), first ++ second.raise first.names, c.plus c'⟩ := by
  have numbered := (statements_numbers ts .zero).numbered h
  have behind : statements us c = ⟨.ok (), second.raise c, c.plus c'⟩ := by
    have after : statements us (c.plus .zero) = (statements us .zero).raise c id :=
      statements_follows us .zero
    rwa [h', Counters.plus_zero] at after
  rw [Lowering.statements_append, Emit.bind_ok h, behind, numbered.names_eq]

/-! ## Texts -/

/-- Compilation gives the code of the tree as it is read; simplifying does not change it. -/
theorem compile_eq_ok_iff {source : String} {listing : Listing} :
    compile source = .ok listing ↔ ∃ t, parse source = .ok t ∧ lower t = .ok listing := by
  cases read : parse source with
  | error e => simp [compile_eq_error_of_parse read]
  | ok t =>
    obtain ⟨⟨a, ha⟩, -⟩ := exists_lower_of_parseTokens read
    obtain ⟨b, hb, compiled⟩ := exists_compile_of_parse read
    rw [compiled, ← lower_simplify_eq ha hb]
    simp [ha]

theorem significant_map_unplaced (tokens : List Token) :
    (Token.significant tokens).map Token.unplaced =
      Token.significant (tokens.map Token.unplaced) := by
  rw [Token.significant, Token.significant, List.filter_map]
  rfl

/-- Tokens that only stand elsewhere have the same code. -/
theorem exists_lower_of_moved {tokens moved : List Token} {t : Tree} {listing : Listing}
    (same : moved.map Token.unplaced = tokens.map Token.unplaced)
    (read : parseTokens tokens = .ok t) (lowered : lower t = .ok listing) :
    ∃ u, parseTokens moved = .ok u ∧ lower u = .ok listing := by
  have significant : (Token.significant moved).map Token.unplaced =
      (Token.significant tokens).map Token.unplaced := by
    rw [significant_map_unplaced, significant_map_unplaced, same]
  obtain ⟨u, read', places⟩ := exists_parseTokens_of_unplaced significant read
  obtain ⟨⟨listing', lowered'⟩, -⟩ := exists_lower_of_parseTokens read'
  rw [lower_eq_of_unplaced places lowered' lowered] at lowered'
  exact ⟨u, read', lowered'⟩

/-- The code of two texts on lines of their own is the code of the first and that of the
second with its temporaries and labels raised by as many as occur in the first. -/
theorem compile_join (first second : String) (q₁ q₂ : Listing) (h₁ : compile first = .ok q₁)
    (h₂ : compile second = .ok q₂) :
    compile (first ++ "\n" ++ second) = .ok (q₁ ++ q₂.raise q₁.names) := by
  obtain ⟨t, read, lowered⟩ := compile_eq_ok_iff.mp h₁
  obtain ⟨u, read', lowered'⟩ := compile_eq_ok_iff.mp h₂
  obtain ⟨moved, joined, same⟩ :=
    Token.scan_join (faultless_of_parseTokens read) (faultless_of_parseTokens read')
  -- Each text is a row of statements with its code, the second one where it stands now.
  obtain ⟨ts, m, c, hm, derived, emitted⟩ :=
    exists_lower_iff_statements.mp ⟨t, read, lowered⟩
  obtain ⟨us, n, c', hn, derived', emitted'⟩ :=
    exists_lower_iff_statements.mp (exists_lower_of_moved same read' lowered')
  have tokens : Token.significant (Token.scan (first ++ "\n" ++ second)) =
      Token.significant (Token.scan first) ++ Token.significant moved := by
    rw [joined, Token.significant, List.filter_append]
  refine compile_eq_ok_iff.mpr (exists_lower_iff_statements.mpr
    ⟨ts ++ us, max m n, c.plus c', by omega, ?_, statements_append_eq emitted emitted'⟩)
  rw [tokens]
  exact Syntax.statements_append derived derived'

/-- The first text ends in a comment, and its branch has drawn a temporary and two labels. -/
theorem compile_join_branch :
    let first := "if (a) \x7bx = a + 1;\x7d // one"
    let second := "while (x) \x7bx--;\x7d"
    let q₁ : Listing :=
      [.ifFalse (.name "a") ⟨0⟩, .binary .add (.name "a") (.name "1") ⟨0⟩,
       .assign (.temporary ⟨0⟩) "x", .goto ⟨1⟩, .label ⟨0⟩, .label ⟨1⟩]
    let q₂ : Listing :=
      [.label ⟨0⟩, .ifFalse (.name "x") ⟨1⟩, .binary .sub (.name "x") (.name "1") ⟨0⟩,
       .assign (.temporary ⟨0⟩) "x", .goto ⟨0⟩, .label ⟨1⟩]
    compile first = .ok q₁ ∧ compile second = .ok q₂ ∧ q₁.names = ⟨1, 2⟩ ∧
      compile (first ++ "\n" ++ second) = .ok (q₁ ++ q₂.raise q₁.names) := by
  intro first second q₁ q₂
  have h₁ : compile first = .ok q₁ := by decide +kernel
  have h₂ : compile second = .ok q₂ := by decide +kernel
  exact ⟨h₁, h₂, by decide, compile_join first second q₁ q₂ h₁ h₂⟩

end Quadrupler
