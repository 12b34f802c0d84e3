import Quadrupler.Proofs.Syntax.Earliest
import Quadrupler.Proofs.Syntax.Faultless
import Quadrupler.Proofs.Token.Visible
set_option autoImplicit false

/-!
# Errors point into the text

The place of an error is that of a token, and where the tokens end it is computed from the last
one, by adding the length of its text to its column.  This is right because what has been read
holds no faults, whose texts are messages, and because only comments go on in another line, which
are not read.  So an error stands where a lexeme of the text begins, or where the last one ends.
-/

namespace Quadrupler

open Syntax

/-! ## What an error says of the tokens -/

theorem Token.exists_describe_eq (token : Token) :
    ∃ stem ∈ ["identifier '", "number '", "invalid input (", "'"], ∃ tail,
      token.describe = stem ++ token.text ++ tail := by
  obtain ⟨kind, text, location⟩ := token
  cases kind with
  | identifier => exact ⟨"identifier '", by decide, "'", rfl⟩
  | number => exact ⟨"number '", by decide, "'", rfl⟩
  | fault => exact ⟨"invalid input (", by decide, ")", rfl⟩
  | _ => exact ⟨"'", by decide, "'", rfl⟩

/-- No wording of a token begins as that of the end. -/
theorem Token.describe_ne (token : Token) : token.describe ≠ "end of input" := by
  obtain ⟨stem, member, tail, same⟩ := token.exists_describe_eq
  have table : ∀ stem ∈ ["identifier '", "number '", "invalid input (", "'"],
      stem.toList ≠ [] ∧ stem.toList.head? ≠ "end of input".toList.head? := by decide
  obtain ⟨nonempty, differs⟩ := table stem member
  intro ends
  rw [ends] at same
  have letters := congrArg (fun text => text.toList.head?) same
  simp only [String.append_assoc, String.toList_append, List.head?_append_of_ne_nil _ nonempty]
    at letters
  exact differs letters.symm

theorem SyntaxError.describeFound_eq_iff {e : SyntaxError} :
    e.describeFound = "end of input" ↔ e.found = none := by
  unfold describeFound
  cases e.found with
  | none => simp
  | some token => simp [token.describe_ne]

/-- A failed reading has used tokens that begin a program, and its error shows the next one. -/
theorem exists_used_of_parseTokens {tokens : List Token} {e : SyntaxError}
    (h : parseTokens tokens = .error e) :
    ∃ stuck used, program (Cursor.ofTokens tokens).location nestingLimit
        (Token.significant tokens) = .error stuck ∧
      Token.significant tokens = used ++ stuck.rest ∧ Viable (derived Grammar.Program) used ∧
      (Cursor.ofTokens tokens).program.2.position = used.length ∧
      e = ⟨stuck.expected, stuck.rest.head?,
        Token.placeAt (Token.significant tokens) used.length⟩ := by
  obtain ⟨stuck, failed, left, rfl⟩ := exists_stuck_of_parseTokens h
  obtain ⟨used, split, viable, -⟩ := earliest_of_stuck failed
  have here : (Token.significant tokens).length - stuck.rest.length = used.length := by
    rw [split, List.length_append, Nat.add_sub_cancel_right]
  rw [here] at left
  have ahead : (Token.significant tokens).drop used.length = stuck.rest := by
    rw [split, List.drop_left]
  refine ⟨stuck, used, failed, split, viable, congrArg Cursor.position left, ?_⟩
  rw [left, Cursor.error, Cursor.location_eq_placeAt, Cursor.peek?, Cursor.rest, ahead]

theorem faultless_of_viable {used : List Token} (h : Viable (derived Grammar.Program) used) :
    Token.Faultless used := by
  obtain ⟨more, t, levels, ⟨derivation⟩⟩ := h
  exact (Token.faultless_append.mp (faultless_of_statements derivation)).1

/-! ## Where lexemes begin and end -/

namespace Segment

variable {here : Location} {cs trail : List Char} {segments before after : List Segment}
  {segment : Segment}

/-- The segment of a token. -/
theorem exists_of_mem {token : Token} (h : token ∈ segments.map Segment.token) :
    ∃ before segment after, segments = before ++ segment :: after ∧ segment.token = token := by
  obtain ⟨segment, member, same⟩ := List.mem_map.mp h
  obtain ⟨before, after, split⟩ := List.append_of_mem member
  exact ⟨before, segment, after, split, same⟩

/-- The segment of the last token that is no comment. -/
theorem exists_of_getLast? {token : Token}
    (h : (Token.significant (segments.map Segment.token)).getLast? = some token) :
    ∃ before segment after, segments = before ++ segment :: after ∧ segment.token = token ∧
      ∀ other ∈ after, other.token.kind = .comment := by
  rw [Token.significant, List.getLast?_eq_head?_reverse, ← List.filter_reverse, List.head?_filter,
    ← List.map_reverse, List.find?_map] at h
  obtain ⟨segment, found, same⟩ := Option.map_eq_some_iff.mp h
  obtain ⟨-, after, before, split, comments⟩ := List.find?_eq_some_iff_append.mp found
  refine ⟨before.reverse, segment, after.reverse, ?_, same, ?_⟩
  · rw [← List.reverse_reverse segments, split]
    simp
  · intro other member
    simpa using comments other (List.mem_reverse.mp member)

/-- A token that is neither a comment nor a fault stops where its lexeme does. -/
theorem Cut.stop_eq {opened : List Char} (cut : Cut here cs segments trail)
    (tokens : Token.scanFrom here opened cs = segments.map Segment.token)
    (split : segments = before ++ segment :: after) (comment : segment.token.kind ≠ .comment)
    (fault : segment.token.kind ≠ .fault) :
    segment.token.stop = here.after (before.flatMap chars ++ segment.chars) := by
  obtain ⟨-, place, told⟩ := cut.each before segment after split
  have member : segment.token ∈ Token.scanFrom here opened cs := by
    rw [tokens, split]
    exact List.mem_map_of_mem (List.mem_append_right _ List.mem_cons_self)
  rw [Token.stop_of_mem member comment fault, place, told.text fault, String.toList_ofList,
    ← Location.after_append, List.append_assoc, chars]

end Segment

theorem Token.exists_placeAt_end {tokens : List Token} (h : tokens ≠ []) :
    ∃ last, tokens.getLast? = some last ∧ placeAt tokens tokens.length = last.stop := by
  refine ⟨tokens.getLast h, List.getLast?_eq_some_getLast h, ?_⟩
  rw [placeAt, List.getElem?_eq_none (Nat.le_refl _), List.getLast?_eq_some_getLast h]
  rfl

/-- There is something to be read where reading fails. -/
theorem ne_nil_of_program_error {here : Location} {free : Nat} {tokens : List Token} {stuck : Stuck}
    (h : program here free tokens = .error stuck) : tokens ≠ [] := by
  rintro rfl
  cases h

/-- Errors point into the text.  Where the tokens end, an error stands right behind the last lexeme
that is no comment; otherwise it stands where a lexeme begins that is no comment, and shows its
token.  Lines and columns are those of the characters before.  The cursor has passed no fault. -/
theorem parse_error_place (source : String) (e : SyntaxError) (h : parse source = .error e) :
    let place (before : List Char) : Location :=
      ⟨1 + before.count '\n', 1 + (before.reverse.takeWhile (· ≠ '\n')).length⟩
    let read := (Token.scan source).filter fun token => token.kind ≠ .comment
    let position := (Cursor.ofText source).program.2.position
    ∃ (segments : List Segment) (trail : List Char),
      Segment.Cut .start source.toList segments trail ∧
      Token.scan source = segments.map Segment.token ∧
      (e.describeFound = "end of input" →
        ∃ before last after, segments = before ++ last :: after ∧ last.token.kind ≠ .comment ∧
          (∀ segment ∈ after, segment.token.kind = .comment) ∧
          e.location = place (before.flatMap Segment.chars ++ last.chars)) ∧
      (e.describeFound ≠ "end of input" →
        ∃ before segment after, segments = before ++ segment :: after ∧
          segment.token.kind ≠ .comment ∧ read[position]? = some segment.token ∧
          segment.token.describe = e.describeFound ∧
          e.location = place (before.flatMap Segment.chars ++ segment.blanks)) ∧
      ∀ token ∈ read.take position, token.kind ≠ .fault := by
  intro place read position
  obtain ⟨stuck, used, failed, split, viable, here, rfl⟩ := exists_used_of_parseTokens h
  obtain ⟨segments, trail, cut, tokens⟩ := Token.exists_cut .start [] source.toList
  change read = used ++ stuck.rest at split
  change position = used.length at here
  have faultless := faultless_of_viable viable
  refine ⟨segments, trail, cut, tokens, fun ends => ?_, fun goes => ?_, ?_⟩
  · have none : stuck.rest = [] :=
      List.head?_eq_none_iff.mp (SyntaxError.describeFound_eq_iff.mp ends)
    rw [none, List.append_nil] at split
    obtain ⟨last, final, behind⟩ := Token.exists_placeAt_end (ne_nil_of_program_error failed)
    have member : last ∈ read := List.mem_of_getLast? final
    have comment : last.kind ≠ .comment := of_decide_eq_true (List.mem_filter.mp member).2
    have fault : last.kind ≠ .fault := faultless last (split ▸ member)
    have scanned : Token.significant (segments.map Segment.token) = read :=
      congrArg Token.significant tokens.symm
    obtain ⟨before, segment, after, row, rfl, comments⟩ :=
      Segment.exists_of_getLast? ((congrArg List.getLast? scanned).trans final)
    refine ⟨before, segment, after, row, comment, comments, ?_⟩
    rw [← split]
    exact behind.trans ((cut.stop_eq tokens row comment fault).trans (Location.start_after _))
  · cases ahead : stuck.rest with
    | nil =>
      rw [ahead] at goes
      exact absurd rfl goes
    | cons token rest =>
      have next : read[used.length]? = some token := by
        rw [split, ahead, List.getElem?_append_right (Nat.le_refl _), Nat.sub_self]
        rfl
      obtain ⟨member, comment⟩ := List.mem_filter.mp (List.mem_of_getElem? next)
      have scanned : token ∈ segments.map Segment.token := by
        rw [← tokens]
        exact member
      obtain ⟨before, segment, after, row, rfl⟩ := Segment.exists_of_mem scanned
      refine ⟨before, segment, after, row, of_decide_eq_true comment, here ▸ next, rfl, ?_⟩
      obtain ⟨-, stands, -⟩ := cut.each before segment after row
      have found : Token.placeAt read used.length = segment.token.location := by
        rw [Token.placeAt, next]
      exact found.trans (stands.trans (Location.start_after _))
  · rw [here, split, List.take_left]
    exact faultless

/-- The first text ends where a parenthesis is missing, and the comments behind its last lexeme do
not count, although one of them has two lines.  In the second one the error shows a fault. -/
theorem parse_error_place_comments :
    let place (before : List Char) : Location :=
      ⟨1 + before.count '\n', 1 + (before.reverse.takeWhile (· ≠ '\n')).length⟩
    let unclosed := "a = (\n12 /* two\nlines */ // end"
    let wrong := "a =\n  12 ];"
    let e : SyntaxError := ⟨.exactly ")", none, ⟨2, 3⟩⟩
    let e' : SyntaxError := ⟨.exactly ";", some ⟨.fault, "unmatched delimiter ']'", ⟨2, 6⟩⟩, ⟨2, 6⟩⟩
    (parse unclosed = .error e ∧ e.describeFound = "end of input" ∧
        ∃ (before : List Segment) (last : Segment) (after : List Segment),
          Token.scan unclosed = (before ++ last :: after).map Segment.token ∧
          last.token.kind ≠ .comment ∧ (∀ segment ∈ after, segment.token.kind = .comment) ∧
          e.location = place (before.flatMap Segment.chars ++ last.chars)) ∧
      parse wrong = .error e' ∧ e'.describeFound ≠ "end of input" ∧
        ∃ (before : List Segment) (segment : Segment) (after : List Segment),
          Token.scan wrong = (before ++ segment :: after).map Segment.token ∧
          segment.token.describe = "invalid input (unmatched delimiter ']')" ∧
          e'.location = place (before.flatMap Segment.chars ++ segment.blanks) := by
  intro place unclosed wrong e e'
  have failed : parse unclosed = .error e := by decide +kernel
  have failed' : parse wrong = .error e' := by decide +kernel
  have goes : e'.describeFound ≠ "end of input" := by decide +kernel
  refine ⟨⟨failed, rfl, ?_⟩, failed', goes, ?_⟩
  · obtain ⟨segments, trail, -, tokens, ends, -⟩ := parse_error_place unclosed e failed
    obtain ⟨before, last, after, rfl, comment, comments, found⟩ := ends rfl
    exact ⟨before, last, after, tokens, comment, comments, found⟩
  · obtain ⟨segments, trail, -, tokens, -, shows, -⟩ := parse_error_place wrong e' failed'
    obtain ⟨before, segment, after, rfl, -, -, described, found⟩ := shows goes
    exact ⟨before, segment, after, tokens, described, found⟩

end Quadrupler
