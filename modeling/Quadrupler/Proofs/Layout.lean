import Quadrupler.Proofs.Join
import Quadrupler.Proofs.Syntax.Earliest
import Quadrupler.Proofs.Token.Print
set_option autoImplicit false

/-!
# Layout and comments do not influence the code

What is read, and the error if nothing is, depends on the kinds and the texts of the tokens that
are no comments.  Their places show in the places of the result only.
-/

namespace Quadrupler

/-! ## Tokens up to places -/

theorem Token.map_unplaced_eq_iff {tokens tokens' : List Token} :
    tokens.map unplaced = tokens'.map unplaced ↔
      (tokens.map fun token => (token.kind, token.text)) =
        tokens'.map fun token => (token.kind, token.text) := by
  constructor
  · intro same
    have shown := congrArg (List.map fun token => (token.kind, token.text)) same
    rwa [List.map_map, List.map_map] at shown
  · intro same
    have made := congrArg (List.map fun (kind, text) => Token.mk kind text .start) same
    rwa [List.map_map, List.map_map] at made

theorem SyntaxError.describeFound_eq {e e' : SyntaxError}
    (same : e.found.map Token.unplaced = e'.found.map Token.unplaced) :
    e.describeFound = e'.describeFound := by
  have described (e : SyntaxError) :
      e.describeFound = ((e.found.map Token.unplaced).map Token.describe).getD "end of input" := by
    unfold describeFound
    cases e.found with
    | none => rfl
    | some token => rfl
  rw [described e, described e', same]

theorem Cursor.found_error (tokens : List Token) (position free : Nat)
    (expected : Syntax.Expectation) :
    ((Cursor.mk tokens position free).error expected).found.map Token.unplaced =
      ((tokens.map Token.unplaced).drop position).head? := by
  rw [← List.map_drop, List.head?_map]
  rfl

/-! ## Readings up to places -/

open Syntax

/-- Tokens that only stand elsewhere give the same error but for its place. -/
theorem exists_error_of_unplaced {tokens tokens' : List Token} {e : SyntaxError}
    (same : (Token.significant tokens').map Token.unplaced =
      (Token.significant tokens).map Token.unplaced)
    (h : parseTokens tokens = .error e) :
    ∃ e', parseTokens tokens' = .error e' ∧ e.expected = e'.expected ∧
      e.found.map Token.unplaced = e'.found.map Token.unplaced := by
  cases h' : parseTokens tokens' with
  | ok t' =>
    obtain ⟨t, read, -⟩ := exists_parseTokens_of_unplaced same.symm h'
    rw [h] at read
    cases read
  | error e' =>
    refine ⟨e', rfl, ?_⟩
    obtain ⟨stuck, failed, left, rfl⟩ := exists_stuck_of_parseTokens h
    obtain ⟨stuck', failed', left', rfl⟩ := exists_stuck_of_parseTokens h'
    have blind := program_blind (Cursor.ofTokens tokens).location nestingLimit
      (Token.significant tokens)
    have blind' := program_blind (Cursor.ofTokens tokens').location nestingLimit
      (Token.significant tokens')
    rw [same, blind, failed, failed'] at blind'
    injection blind' with blind'
    injection blind' with expected rest
    have ahead : stuck.rest.length = stuck'.rest.length := by
      simpa using congrArg List.length rest
    have behind : (Token.significant tokens).length = (Token.significant tokens').length := by
      simpa using (congrArg List.length same).symm
    refine ⟨expected, ?_⟩
    rw [left, left', Cursor.found_error, Cursor.found_error, same, ahead, behind]

/-- Tokens with the same kinds and texts, comments aside, are read as trees that differ in
places only and have the same code, or give errors that differ in places only. -/
theorem parseTokens_layout (tokens tokens' : List Token)
    (same : ((tokens.filter fun token => token.kind ≠ .comment).map fun token =>
        (token.kind, token.text)) =
      (tokens'.filter fun token => token.kind ≠ .comment).map fun token =>
        (token.kind, token.text)) :
    (∃ t t' listing, parseTokens tokens = .ok t ∧ parseTokens tokens' = .ok t' ∧
        t.unplaced = t'.unplaced ∧
        lower t.simplify = .ok listing ∧ lower t'.simplify = .ok listing) ∨
      ∃ e e', parseTokens tokens = .error e ∧ parseTokens tokens' = .error e' ∧
        e.expected = e'.expected ∧ e.describeFound = e'.describeFound ∧
        e.found.map Token.unplaced = e'.found.map Token.unplaced := by
  have moved : (Token.significant tokens').map Token.unplaced =
      (Token.significant tokens).map Token.unplaced := Token.map_unplaced_eq_iff.mpr same.symm
  cases read : parseTokens tokens with
  | error e =>
    obtain ⟨e', read', expected, found⟩ := exists_error_of_unplaced moved read
    exact .inr ⟨e, e', rfl, read', expected, SyntaxError.describeFound_eq found, found⟩
  | ok t =>
    obtain ⟨t', read', places⟩ := exists_parseTokens_of_unplaced moved read
    obtain ⟨⟨raw, lowered⟩, listing, simplified⟩ := exists_lower_of_parseTokens read
    obtain ⟨⟨raw', lowered'⟩, listing', simplified'⟩ := exists_lower_of_parseTokens read'
    -- Simplifying moves places, so it is the code before it that is compared.
    have code : listing' = listing := by
      rw [← lower_simplify_eq lowered simplified, ← lower_simplify_eq lowered' simplified']
      exact lower_eq_of_unplaced places lowered' lowered
    rw [code] at simplified'
    exact .inl ⟨t, t', listing, rfl, read', places.symm, simplified, simplified'⟩

/-- In the second text of each pair, comments stand between the tokens and lines break. -/
theorem parseTokens_layout_comments :
    let tokens := Token.scan "x = 1 + y;"
    let tokens' := Token.scan "x = /* one\n */ 1\n+ y ; // two"
    let unclosed := Token.scan "x = (1;"
    let unclosed' := Token.scan "x = // one\n(1\n;"
    (∃ t t', parseTokens tokens = .ok t ∧ parseTokens tokens' = .ok t' ∧
        t.unplaced = t'.unplaced ∧ lower t.simplify = lower t'.simplify) ∧
      ∃ e e', parseTokens unclosed = .error e ∧ parseTokens unclosed' = .error e' ∧
        e.expected = e'.expected ∧ e.describeFound = e'.describeFound := by
  intro tokens tokens' unclosed unclosed'
  have read : (parseTokens tokens).isOk = true := by decide +kernel
  have unread : (parseTokens unclosed).isOk = false := by decide +kernel
  refine ⟨?_, ?_⟩
  · rcases parseTokens_layout tokens tokens' (by decide +kernel) with
      ⟨t, t', listing, ht, ht', places, lowered, lowered'⟩ | ⟨e, e', failed, -⟩
    · exact ⟨t, t', ht, ht', places, lowered.trans lowered'.symm⟩
    · rw [failed] at read
      cases read
  · rcases parseTokens_layout unclosed unclosed' (by decide +kernel) with
      ⟨t, t', listing, ht, -⟩ | ⟨e, e', he, he', expected, found, -⟩
    · rw [ht] at unread
      cases unread
    · exact ⟨e, e', he, he', expected, found⟩

/-! ## Texts -/

/-- A text without a fault and its tokens, printed on lines of their own, have the same tokens
but for their places.  So they have the same code, or errors that differ in places only. -/
theorem scan_print (source : String) (h : ∀ token ∈ Token.scan source, token.kind ≠ .fault) :
    let printed := Token.print (Token.scan source)
    ((Token.scan printed).map fun token => (token.kind, token.text)) =
        ((Token.scan source).map fun token => (token.kind, token.text)) ∧
      ((∃ listing, compile source = .ok listing ∧ compile printed = .ok listing) ∨
        ∃ e e', compile source = .error (.reading e) ∧ compile printed = .error (.reading e') ∧
          e.expected = e'.expected ∧ e.describeFound = e'.describeFound ∧
          e.found.map Token.unplaced = e'.found.map Token.unplaced) := by
  intro printed
  have again : (Token.scan printed).map Token.unplaced = (Token.scan source).map Token.unplaced :=
    Token.scan_print_unplaced h
  refine ⟨Token.map_unplaced_eq_iff.mp again, ?_⟩
  cases read : parse source with
  | ok t =>
    obtain ⟨listing, -, compiled⟩ := exists_compile_of_parse read
    obtain ⟨t, read, lowered⟩ := compile_eq_ok_iff.mp compiled
    exact .inl ⟨listing, compiled, compile_eq_ok_iff.mpr (exists_lower_of_moved again read lowered)⟩
  | error e =>
    have moved : (Token.significant (Token.scan printed)).map Token.unplaced =
        (Token.significant (Token.scan source)).map Token.unplaced := by
      rw [significant_map_unplaced, significant_map_unplaced, again]
    obtain ⟨e', read', expected, found⟩ := exists_error_of_unplaced moved read
    exact .inr ⟨e, e', compile_eq_error_of_parse read, compile_eq_error_of_parse read', expected,
      SyntaxError.describeFound_eq found, found⟩

/-- The operator and the closing parenthesis have neighbours in the text that they have no more
when printed, and the second comment would go on if its line did. -/
theorem scan_print_comments :
    let source := "x=(a>=1.5)/* one */;// two\ny++;"
    let printed := "x\n=\n(\na\n>=\n1.5\n)\n/* one */\n;\n// two\ny\n++\n;"
    Token.print (Token.scan source) = printed ∧
      ((Token.scan printed).map fun token => (token.kind, token.text)) =
        ((Token.scan source).map fun token => (token.kind, token.text)) ∧
      compile printed = compile source := by
  intro source printed
  have shown : Token.print (Token.scan source) = printed := by decide +kernel
  have read : (compile source).isOk = true := by decide +kernel
  have again := scan_print source (by decide +kernel)
  rw [shown] at again
  refine ⟨shown, again.1, ?_⟩
  rcases again.2 with ⟨listing, compiled, compiled'⟩ | ⟨e, e', failed, -⟩
  · exact compiled'.trans compiled.symm
  · rw [failed] at read
    cases read

end Quadrupler
