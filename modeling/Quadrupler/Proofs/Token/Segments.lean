import Mathlib.Data.List.Induction
import Mathlib.Data.List.Infix
import Mathlib.Data.List.TakeWhile
import Quadrupler.Proofs.Token.Join
import Quadrupler.Proofs.Token.Lexeme
set_option autoImplicit false

/-!
# A text is its blanks and its lexemes

Cutting a text into tokens loses nothing: the text is a row of segments, each of them blanks
and a lexeme, with blanks behind the last one, and there is one token for each segment.  The
token has the text of its lexeme, or it is a fault and its lexeme is one character or a
comment that is never closed.  It stands where the characters before its lexeme lead to.
-/

namespace Quadrupler

/-! ## Places -/

/-- Lines are as many as line feeds, and columns begin anew behind the last of them. -/
theorem Location.start_after (cs : List Char) :
    start.after cs = ⟨1 + cs.count '\n', 1 + (cs.reverse.takeWhile (· ≠ '\n')).length⟩ := by
  induction cs using List.reverseRecOn with
  | nil => rfl
  | append_singleton cs c ih =>
    rw [after_append, ih, after_cons, after_nil, next, List.count_append, List.reverse_append]
    by_cases feed : c = '\n'
    · subst feed
      simp
      omega
    · simp [feed]
      omega

/-! ## The tokens of lexemes -/

/-- The third letter tells the wordings apart. -/
theorem LexicalFault.third_letter {stem : String} (long : 2 < stem.toList.length) (c : Char) :
    (stem ++ toString c ++ "'").toList[2]? = stem.toList[2]? := by
  rw [String.append_assoc, String.toList_append, List.getElem?_append_left long]

theorem LexicalFault.message_ne {cause : LexicalFault} (h : cause ≠ .unterminatedComment) :
    cause.message ≠ unterminatedComment.message := by
  intro same
  have letters := congrArg (fun text => text.toList[2]?) same
  have comment : unterminatedComment.message.toList[2]? = some 't' := by decide
  simp only [comment] at letters
  cases cause with
  | unterminatedComment => exact h rfl
  | invalidOperator c =>
    have letter : (invalidOperator c).message.toList[2]? = some 'v' := third_letter (by decide) c
    simp [letter] at letters
  | unrecognized c =>
    have letter : (unrecognized c).message.toList[2]? = some 'r' := third_letter (by decide) c
    simp [letter] at letters
  | unmatched c =>
    have letter : (unmatched c).message.toList[2]? = some 'm' := third_letter (by decide) c
    simp [letter] at letters

namespace Lexeme

variable {lexeme : Lexeme} {here : Location} {opened : List Char} {c : Char} {cs : List Char}

theorem token_location : (lexeme.token here opened).1.location = here := by
  unfold token
  split
  case h_6 c _ =>
    cases Brackets.step? opened c with
    | none => rfl
    | some opened' => rfl
  all_goals rfl

theorem token_text (h : (lexeme.token here opened).1.kind ≠ .fault) :
    (lexeme.token here opened).1.text = String.ofList lexeme.chars := by
  unfold token at h ⊢
  split
  case h_2 form => simp [form] at h
  case h_6 c form =>
    cases found : Brackets.step? opened c with
    | none => simp [form, found] at h
    | some opened' => rfl
  case h_7 form => simp [form] at h
  all_goals rfl

theorem closeComment_eq_none_iff : closeComment cs = none ↔ ¬['*', '/'] <:+: cs := by
  fun_induction closeComment cs with
  | case1 => simp
  | case2 tail =>
    have closed : ['*', '/'] <:+: '*' :: '/' :: tail := ⟨[], tail, rfl⟩
    simp [closed]
  | case3 c tail differs ih =>
    have elsewhere : ¬['*', '/'] <+: c :: tail := by
      rintro ⟨after, same⟩
      cases same
      exact differs after rfl rfl
    rw [Option.map_eq_none_iff, ih, List.infix_cons_iff, or_iff_right elsewhere]

/-- A comment that is never closed goes on to the end. -/
theorem Begins.of_openComment (h : Begins c cs lexeme) (form : lexeme.form = .openComment) :
    lexeme.rest = [] ∧ ∃ body, lexeme.chars = '/' :: '*' :: body ∧ ¬['*', '/'] <:+: body := by
  cases h with
  | openComment slash star unclosed =>
    subst slash star
    exact ⟨rfl, _, rfl, closeComment_eq_none_iff.mp unclosed⟩
  | _ => cases form

/-- A fault is a comment that is never closed or a single character. -/
theorem Begins.of_fault (h : Begins c cs lexeme)
    (fault : (lexeme.token here opened).1.kind = .fault) :
    ((lexeme.token here opened).1.text = LexicalFault.unterminatedComment.message ∧
        lexeme.form = .openComment) ∨
      ((lexeme.token here opened).1.text ≠ LexicalFault.unterminatedComment.message ∧
        lexeme.chars.length = 1) := by
  cases h with
  | openComment slash star unclosed => exact .inl ⟨rfl, rfl⟩
  | word letter =>
    simp only [token] at fault
    split at fault
    · cases fault
    · cases fault
  | delimiter plain none member =>
    refine .inr ⟨?_, rfl⟩
    cases found : Brackets.step? opened c with
    | none =>
      simp only [token, found]
      exact LexicalFault.message_ne LexicalFault.noConfusion
    | some opened' => simp [token, found] at fault
  | stray plain none other =>
    refine .inr ⟨LexicalFault.message_ne ?_, rfl⟩
    split
    · exact LexicalFault.noConfusion
    · exact LexicalFault.noConfusion
  | _ => cases fault

end Lexeme

/-! ## Segments -/

/-- Blanks, the lexeme that follows them, and its token. -/
structure Segment where
  blanks : List Char
  lexeme : List Char
  token : Token

namespace Segment

/-- The characters that the segment takes up. -/
def chars (segment : Segment) : List Char := segment.blanks ++ segment.lexeme

/-- Nothing but blanks stands before a lexeme, which begins with none. -/
structure Formed (segment : Segment) : Prop where
  blank : ∀ c ∈ segment.blanks, Text.isBlank c = true
  begins : ∃ c cs, segment.lexeme = c :: cs ∧ Text.isBlank c = false

/-- The token says what its lexeme is, where these segments and characters follow. -/
structure Told (segment : Segment) (after : List Segment) (trail : List Char) : Prop where
  text : segment.token.kind ≠ .fault → segment.token.text = String.ofList segment.lexeme
  single : segment.token.kind = .fault → segment.token.text ≠ "unterminated block comment" →
    segment.lexeme.length = 1
  unclosed : segment.token.kind = .fault → segment.token.text = "unterminated block comment" →
    (∃ body, segment.lexeme = '/' :: '*' :: body ∧ ¬['*', '/'] <:+: body) ∧
      after = [] ∧ trail = []

/-- Characters from a place on that are cut into segments and blanks behind them. -/
structure Cut (here : Location) (cs : List Char) (segments : List Segment) (trail : List Char) :
    Prop where
  whole : cs = segments.flatMap chars ++ trail
  blank : ∀ c ∈ trail, Text.isBlank c = true
  each : ∀ before segment after, segments = before ++ segment :: after →
    segment.Formed ∧ segment.token.location = here.after (before.flatMap chars ++ segment.blanks) ∧
      segment.Told after trail

theorem cut_blanks {cs : List Char} (here : Location) (h : ∀ c ∈ cs, Text.isBlank c = true) :
    Cut here cs [] cs where
  whole := rfl
  blank := h
  each := by
    intro before segment after impossible
    simp at impossible

theorem Cut.cons {here : Location} {segment : Segment} {cs : List Char} {segments : List Segment}
    {trail : List Char} (formed : segment.Formed)
    (place : segment.token.location = here.after segment.blanks)
    (told : segment.Told segments trail)
    (h : Cut (here.after segment.chars) cs segments trail) :
    Cut here (segment.chars ++ cs) (segment :: segments) trail where
  whole := by rw [h.whole, List.flatMap_cons, List.append_assoc]
  blank := h.blank
  each := by
    intro before other after split
    cases before with
    | nil =>
      cases split
      exact ⟨formed, place, told⟩
    | cons first before =>
      cases split
      obtain ⟨formed', place', told'⟩ := h.each before other after rfl
      refine ⟨formed', ?_, told'⟩
      rw [place', List.flatMap_cons, List.append_assoc, ← Location.after_append]

end Segment

namespace Lexeme

variable {lexeme : Lexeme} {opened : List Char} {c : Char} {cs : List Char}

/-- The segment of a lexeme behind blanks. -/
def segment (lexeme : Lexeme) (blanks : List Char) (here : Location) (opened : List Char) :
    Segment :=
  ⟨blanks, lexeme.chars, (lexeme.token (here.after blanks) opened).1⟩

theorem formed_segment {blanks : List Char} (blank : ∀ d ∈ blanks, Text.isBlank d = true)
    (visible : Text.isBlank c = false) (here : Location) :
    ((first c cs).segment blanks here opened).Formed := by
  refine ⟨blank, ?_⟩
  obtain ⟨d, chars, same⟩ := List.exists_cons_of_ne_nil (chars_ne_nil c cs)
  have whole := chars_append_rest c cs
  rw [same, List.cons_append] at whole
  obtain rfl : d = c := (List.cons.inj whole).1
  exact ⟨d, chars, same, visible⟩

theorem Begins.told_segment (h : Begins c cs lexeme) (blanks : List Char) (here : Location)
    {after : List Segment} {trail : List Char}
    (ends : lexeme.rest = [] → after = [] ∧ trail = []) :
    (lexeme.segment blanks here opened).Told after trail where
  text := token_text
  single := by
    intro fault other
    rcases h.of_fault fault with ⟨same, -⟩ | ⟨-, single⟩
    · exact absurd same other
    · exact single
  unclosed := by
    intro fault same
    rcases h.of_fault fault with ⟨-, form⟩ | ⟨other, -⟩
    · obtain ⟨last, body⟩ := h.of_openComment form
      exact ⟨body, ends last⟩
    · exact absurd same other

end Lexeme

namespace Token

theorem scanFrom_blanks {blanks : List Char} (h : ∀ c ∈ blanks, Text.isBlank c = true)
    (here : Location) (opened cs : List Char) :
    scanFrom here opened (blanks ++ cs) = scanFrom (here.after blanks) opened cs := by
  induction blanks generalizing here with
  | nil => rfl
  | cons c blanks ih =>
    obtain ⟨blank, others⟩ := List.forall_mem_cons.mp h
    rw [List.cons_append, scanFrom_blank blank, ih others]
    rfl

theorem exists_blanks (cs : List Char) :
    ∃ blanks behind, cs = blanks ++ behind ∧ (∀ c ∈ blanks, Text.isBlank c = true) ∧
      ∀ c ∈ behind.head?, Text.isBlank c = false := by
  refine ⟨cs.takeWhile Text.isBlank, cs.dropWhile Text.isBlank,
    List.takeWhile_append_dropWhile.symm, fun c member => List.mem_takeWhile_imp member, ?_⟩
  intro c head
  have stops := List.head?_dropWhile_not Text.isBlank cs
  rw [Option.mem_def.mp head] at stops
  exact stops

/-- The characters from a place on are cut into as many segments as tokens.  The induction is
on how many characters there are: a lexeme takes at least one of them. -/
theorem exists_cut (here : Location) (opened cs : List Char) :
    ∃ segments trail, Segment.Cut here cs segments trail ∧
      scanFrom here opened cs = segments.map Segment.token := by
  induction size : cs.length using Nat.strongRecOn generalizing here opened cs with
  | ind size ih =>
    subst size
    obtain ⟨blanks, behind, rfl, blank, visible⟩ := exists_blanks cs
    rw [scanFrom_blanks blank]
    cases behind with
    | nil =>
      rw [List.append_nil, scanFrom]
      exact ⟨[], blanks, Segment.cut_blanks here blank, rfl⟩
    | cons c tail =>
      have shown : Text.isBlank c = false := visible c rfl
      have shorter : (Lexeme.first c tail).rest.length < (blanks ++ c :: tail).length := by
        have := Lexeme.length_rest_le c tail
        simp only [List.length_append, List.length_cons]
        omega
      let segment := (Lexeme.first c tail).segment blanks here opened
      obtain ⟨segments, trail, cut, tokens⟩ := ih _ shorter (here.after segment.chars)
        ((Lexeme.first c tail).token (here.after blanks) opened).2 (Lexeme.first c tail).rest rfl
      refine ⟨segment :: segments, trail, ?_, ?_⟩
      · have ends : (Lexeme.first c tail).rest = [] → segments = [] ∧ trail = [] := by
          intro last
          rw [last, scanFrom] at tokens
          obtain rfl : segments = [] := List.map_eq_nil_iff.mp tokens.symm
          have whole := cut.whole
          rw [last] at whole
          exact ⟨rfl, whole.symm⟩
        have whole : segment.chars ++ (Lexeme.first c tail).rest = blanks ++ c :: tail := by
          rw [← Lexeme.chars_append_rest c tail, ← List.append_assoc]
          rfl
        rw [← whole]
        exact .cons (Lexeme.formed_segment blank shown here) Lexeme.token_location
          ((Lexeme.begins_first c tail).told_segment blanks here ends) cut
      · rw [scanFrom_cons (by simp [shown]), List.map_cons, ← tokens, ← Location.after_append]
        rfl

/-- Cutting a text into tokens loses nothing and puts every token where its lexeme stands.
The text is a row of segments and blanks behind them, with a token for each segment.  A token
stands in the line after as many line feeds as lie before its lexeme, and in the column after
the characters since the last of them.  Its text is the lexeme, unless it is a fault: then the
lexeme is one character, or the comment that is never closed, which is last. -/
theorem scan_segments (source : String) :
    ∃ (segments : List Segment) (trail : List Char),
      source.toList = segments.flatMap Segment.chars ++ trail ∧
      (∀ c ∈ trail, Text.isBlank c = true) ∧
      scan source = segments.map Segment.token ∧
      ∀ before segment after, segments = before ++ segment :: after →
        let earlier := before.flatMap Segment.chars ++ segment.blanks
        segment.Formed ∧
          segment.token.location =
            ⟨1 + earlier.count '\n', 1 + (earlier.reverse.takeWhile (· ≠ '\n')).length⟩ ∧
          segment.Told after trail := by
  obtain ⟨segments, trail, cut, tokens⟩ := exists_cut .start [] source.toList
  refine ⟨segments, trail, cut.whole, cut.blank, tokens, fun before segment after split => ?_⟩
  obtain ⟨formed, place, told⟩ := cut.each before segment after split
  rw [Location.start_after] at place
  exact ⟨formed, place, told⟩

/-- The exclamation mark is a fault of its own, not part of the comment behind it. -/
example : scan "a\n !/* b" =
    [⟨.identifier, "a", ⟨1, 1⟩⟩, ⟨.fault, "invalid operator '!'", ⟨2, 2⟩⟩,
     ⟨.fault, "unterminated block comment", ⟨2, 3⟩⟩] := by
  decide +kernel

end Token

end Quadrupler
