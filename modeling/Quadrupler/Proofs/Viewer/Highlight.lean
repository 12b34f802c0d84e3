import Quadrupler.Proofs.Token.Boundary
import Quadrupler.Proofs.Token.Visible
import Quadrupler.Viewer.Panes
set_option autoImplicit false

/-!
# Highlighting and scanning

The pieces in which a line is coloured are not its tokens: a piece may hold letters of any script,
and points inside it.  Still the two agree on what matters.  No piece before a comment hides the
beginning of one, so the piece coloured as a comment begins where the first comment among the
tokens does.  And a piece never ends between two parts of a word, so what is coloured as a keyword
is a keyword among the tokens.
-/

namespace Quadrupler

/-- The characters of a line, whatever their styles. -/
def Screen.Line.text (line : Screen.Line) : List Char := line.flatMap fun span => span.text.toList

namespace Viewer

open Screen Lexeme

variable {alphanumeric : Char → Bool} {c : Char} {cs piece before after : List Char} {span : Span}
  {line others : Line}

@[simp] theorem text_nil : Line.text [] = [] := rfl

@[simp] theorem text_cons : Line.text (span :: line) = span.text.toList ++ Line.text line := rfl

@[simp] theorem text_append : Line.text (line ++ others) = Line.text line ++ Line.text others :=
  List.flatMap_append

/-! ## Characters of words -/

/-- The test finds the letters and digits of ASCII, and says of other characters what it likes. -/
def FollowsAscii (alphanumeric : Char → Bool) : Prop :=
  ∀ c : Char, c.toNat < 0x80 → alphanumeric c = c.isAlphanum

theorem followsAscii_isAlphanumeric : FollowsAscii Text.isAlphanumeric := by
  intro c small
  rw [Text.isAlphanumeric, Text.isAlphabetic, Text.isNumeric, if_pos small, if_pos small]
  rfl

theorem beginsWord_of_isWordPart (ascii : FollowsAscii alphanumeric) (h : isWordPart c = true) :
    beginsWord alphanumeric c = true := by
  rcases isWordPart_iff.mp h with part | rfl
  · have small : c.toNat < 0x80 := by
      rcases (Bool.or_eq_true _ _).mp part with letter | digit
      · have := (printed_of_isAlpha letter).2
        omega
      · have := (printed_of_isDigit digit).2
        omega
    exact (Bool.or_eq_true _ _).mpr (.inl ((ascii c small).trans part))
  · exact (Bool.or_eq_true _ _).mpr (.inr rfl)

theorem not_isWordPart_of_not_beginsWord (ascii : FollowsAscii alphanumeric)
    (h : ¬beginsWord alphanumeric c = true) : isWordPart c = false :=
  Bool.eq_false_iff.mpr (mt (beginsWord_of_isWordPart ascii) h)

theorem continuesWord_of_beginsWord (h : beginsWord alphanumeric c = true) :
    continuesWord alphanumeric c = true :=
  (Bool.or_eq_true _ _).mpr (.inl h)

/-- What is left behind a word goes on with no part of one. -/
theorem not_isWordPart_of_dropWhile (ascii : FollowsAscii alphanumeric) :
    ∀ e ∈ (cs.dropWhile (continuesWord alphanumeric)).head?, isWordPart e = false := by
  intro e member
  have stop := List.head?_dropWhile_not (continuesWord alphanumeric) cs
  rw [Option.mem_def.mp member] at stop
  refine not_isWordPart_of_not_beginsWord ascii fun begins => ?_
  exact absurd (stop.symm.trans (continuesWord_of_beginsWord begins)) (by decide)

theorem uncommented_word (ascii : FollowsAscii alphanumeric)
    (begins : beginsWord alphanumeric c = true) :
    Uncommented (c :: cs.takeWhile (continuesWord alphanumeric)) after := by
  refine uncommented_of_not_mem fun member => ?_
  have slash : continuesWord alphanumeric '/' = true := by
    rcases List.mem_cons.mp member with rfl | member
    · exact continuesWord_of_beginsWord begins
    · exact List.mem_takeWhile_imp member
  rw [continuesWord, beginsWord, ascii '/' (by decide)] at slash
  exact absurd slash (by decide)

/-! ## Styles tell the pieces apart -/

theorem wordStyle_ne_comment (word : String) : wordStyle word ≠ .colored Theme.comment := by
  unfold wordStyle
  repeat' split
  all_goals decide

theorem charStyle_ne_comment (c : Char) : charStyle c ≠ .colored Theme.comment := by
  unfold charStyle
  repeat' split
  all_goals decide

theorem charStyle_ne_keyword (c : Char) : charStyle c ≠ keywordStyle := by
  unfold charStyle
  repeat' split
  all_goals decide

theorem commentStyle_ne_keyword : Style.colored Theme.comment ≠ keywordStyle := by decide

theorem mem_keywords_of_wordStyle {word : String} (h : wordStyle word = keywordStyle) :
    word ∈ Token.keywords := by
  unfold wordStyle at h
  split at h
  · assumption
  · split at h
    all_goals exact absurd h (by decide)

/-! ## The pieces of a line -/

/-- The pieces make up the line. -/
theorem text_highlight (cs : List Char) : Line.text (highlight alphanumeric cs) = cs := by
  fun_induction highlight alphanumeric cs with
  | case1 => rfl
  | case2 c cs opens => simp
  | case3 c cs notOpens begins word ih => simp [word, ih]
  | case4 c cs notOpens plain ih => simp [ih]

theorem text_split (h : highlight alphanumeric cs = line ++ span :: others) :
    Line.text line ++ (span.text.toList ++ Line.text others) = cs := by
  rw [← text_cons, ← text_append, ← h, text_highlight]

/-- How a piece stands among the characters before it and behind it: no comment has begun before,
and its style is right. -/
structure Aligned (before : List Char) (span : Span) (after : List Char) : Prop where
  plain : Uncommented before (span.text.toList ++ after)
  comment : span.style = .colored Theme.comment → Opens (span.text.toList ++ after)
  keyword : span.style = keywordStyle → span.text ∈ Token.keywords ∧
    (∀ e ∈ before.getLast?, isWordPart e = false) ∧ ∀ e ∈ after.head?, isWordPart e = false

theorem aligned_nil
    (comment : span.style = .colored Theme.comment → Opens (span.text.toList ++ after))
    (keyword : span.style = keywordStyle →
      span.text ∈ Token.keywords ∧ ∀ e ∈ after.head?, isWordPart e = false) :
    Aligned [] span after where
  plain := uncommented_of_not_mem List.not_mem_nil
  comment := comment
  keyword := fun style => ⟨(keyword style).1, by simp, (keyword style).2⟩

/-- More characters may stand before a piece, unless they begin a comment or make a word longer. -/
theorem Aligned.behind (h : Aligned before span after)
    (plain : Uncommented piece (before ++ (span.text.toList ++ after)))
    (apart : (∀ e ∈ piece.getLast?, isWordPart e = false) ∨
      ∀ e ∈ (before ++ (span.text.toList ++ after)).head?, isWordPart e = false) :
    Aligned (piece ++ before) span after := by
  refine ⟨plain.append h.plain, h.comment, fun keyword => ?_⟩
  obtain ⟨known, left, right⟩ := h.keyword keyword
  refine ⟨known, ?_, right⟩
  cases before with
  | cons d before => simpa using left
  | nil =>
    rw [List.append_nil]
    refine apart.resolve_right fun first => ?_
    obtain ⟨d, ds, text, letter, -⟩ := Token.isWord_of_keyword known
    rw [text] at first
    exact absurd ((first d rfl).symm.trans (isWordPart_of_isAlpha letter)) (by decide)

/-- Every piece of a line stands right.  The induction is on the pieces before it: behind a word
no part of a word follows, and another character is none. -/
theorem aligned_of_highlight (ascii : FollowsAscii alphanumeric)
    (h : highlight alphanumeric cs = line ++ span :: others) :
    Aligned (Line.text line) span (Line.text others) := by
  revert line
  fun_induction highlight alphanumeric cs with
  | case1 => simp
  | case2 c cs opens =>
    intro line h
    obtain ⟨rfl, rfl, rfl⟩ : line = [] ∧ span = ⟨String.ofList (c :: cs), .colored Theme.comment⟩ ∧
        others = [] := by
      cases line with
      | nil => simpa [eq_comm] using h
      | cons _ line => simp at h
    refine aligned_nil (fun _ => ?_) fun style => ?_
    · simpa using opens_cons_iff.mpr opens
    · exact absurd style commentStyle_ne_keyword
  | case3 c cs notOpens begins =>
    rename_i word ih
    intro line h
    cases line with
    | nil =>
      obtain ⟨rfl, rfl⟩ := List.cons.inj h
      rw [text_highlight]
      exact aligned_nil (fun style => absurd style (wordStyle_ne_comment _))
        fun style => ⟨mem_keywords_of_wordStyle style, not_isWordPart_of_dropWhile ascii⟩
    | cons first line =>
      obtain ⟨rfl, rest⟩ := List.cons.inj h
      rw [text_cons, String.toList_ofList]
      refine (ih rest).behind (uncommented_word ascii begins) (.inr ?_)
      rw [text_split rest]
      exact not_isWordPart_of_dropWhile ascii
  | case4 c cs notOpens plain ih =>
    intro line h
    cases line with
    | nil =>
      obtain ⟨rfl, rfl⟩ := List.cons.inj h
      exact aligned_nil (fun style => absurd style (charStyle_ne_comment _))
        fun style => absurd style (charStyle_ne_keyword _)
    | cons first line =>
      obtain ⟨rfl, rest⟩ := List.cons.inj h
      rw [text_cons, Char.toString, String.toList_singleton]
      refine (ih rest).behind ?_ (.inl ?_)
      · rw [text_split rest]
        exact uncommented_singleton (opens_cons_iff.not.mpr notOpens)
      · simpa using not_isWordPart_of_not_beginsWord ascii plain

/-- Where nothing is coloured as a comment, none begins. -/
theorem uncommented_of_highlight (ascii : FollowsAscii alphanumeric)
    (none : ∀ span ∈ highlight alphanumeric cs, span.style ≠ .colored Theme.comment) :
    Uncommented cs [] := by
  fun_induction highlight alphanumeric cs with
  | case1 => exact uncommented_of_not_mem List.not_mem_nil
  | case2 c cs opens => exact absurd rfl (none _ List.mem_cons_self)
  | case3 c cs notOpens begins word ih =>
    have split : c :: cs = c :: cs.takeWhile (continuesWord alphanumeric) ++
        cs.dropWhile (continuesWord alphanumeric) := by simp
    rw [split]
    exact (uncommented_word ascii begins).append (ih (List.forall_mem_cons.mp none).2)
  | case4 c cs notOpens plain ih =>
    have first : Uncommented [c] (cs ++ []) := by
      rw [List.append_nil]
      exact uncommented_singleton (opens_cons_iff.not.mpr notOpens)
    exact first.append (ih (List.forall_mem_cons.mp none).2)

/-! ## Agreement -/

/-- A place in a line is as many columns behind its beginning as there are characters before. -/
theorem after_text_of_highlight (single : '\n' ∉ cs)
    (h : highlight alphanumeric cs = line ++ span :: others) :
    Location.start.after (Line.text line) = ⟨1, 1 + (Line.text line).length⟩ := by
  refine Location.after_of_not_mem (fun feed => single ?_) _
  rw [← text_split h]
  exact List.mem_append_left _ feed

theorem exists_comment_iff (ascii : FollowsAscii alphanumeric) (cs : List Char) :
    (∃ span ∈ highlight alphanumeric cs, span.style = .colored Theme.comment) ↔
      ∃ token ∈ Token.scanFrom .start [] cs, token.isRemark = true := by
  constructor
  · rintro ⟨span, member, style⟩
    obtain ⟨line, others, split⟩ := List.append_of_mem member
    have aligned := aligned_of_highlight ascii split
    obtain ⟨token, found, -⟩ := Token.exists_find?_isRemark aligned.plain (aligned.comment style)
    rw [text_split split] at found
    exact ⟨token, List.mem_of_find?_eq_some found, List.find?_some found⟩
  · rintro ⟨token, member, remark⟩
    obtain ⟨before, rest, rfl, opens⟩ := Token.exists_opens_of_mem member remark
    by_contra none
    have plain := uncommented_of_highlight ascii fun span member style => none ⟨span, member, style⟩
    have nonempty : rest ≠ [] := by
      rintro rfl
      simp [Opens] at opens
    refine plain rest (List.suffix_append _ _) nonempty ?_
    rwa [List.append_nil]

/-- The colours of a line agree with its tokens.  The pieces make up the line; one is coloured as a
comment if and only if there is a comment among the tokens, closed or not, and it begins where the
first of them does; and what is coloured as a keyword is a keyword among the tokens.  Which
characters outside of ASCII are letters or digits makes no difference. -/
theorem highlight_agrees_with_scan {alphanumeric : Char → Bool}
    (ascii : FollowsAscii alphanumeric) (line : String) (single : '\n' ∉ line.toList) :
    Line.text (highlight alphanumeric line.toList) = line.toList ∧
    ((∃ span ∈ highlight alphanumeric line.toList, span.style = .colored Theme.comment) ↔
      ∃ token ∈ Token.scan line, token.isRemark = true) ∧
    ∀ before span after, highlight alphanumeric line.toList = before ++ span :: after →
      (span.style = .colored Theme.comment →
        ∃ token, (Token.scan line).find? Token.isRemark = some token ∧
          token.location = ⟨1, 1 + (Line.text before).length⟩) ∧
      (span.style = keywordStyle →
        ∃ token ∈ Token.scan line, token.kind = .keyword ∧ token.text = span.text ∧
          token.location = ⟨1, 1 + (Line.text before).length⟩) := by
  refine ⟨text_highlight _, exists_comment_iff ascii _, fun before span after split => ?_⟩
  have aligned := aligned_of_highlight ascii split
  rw [← after_text_of_highlight single split, Token.scan, ← text_split split]
  constructor
  · intro style
    exact Token.exists_find?_isRemark aligned.plain (aligned.comment style)
  · intro style
    obtain ⟨known, left, right⟩ := aligned.keyword style
    exact Token.exists_keyword known aligned.plain left right

/-- Of three times the same letters the one behind a name and a point is no keyword for the
colours, and the comment is never closed. -/
theorem highlight_agrees_with_scan_points :
    FollowsAscii Text.isAlphanumeric ∧ '\n' ∉ ".if x.if(if/* x".toList ∧
      (∃ token ∈ Token.scan ".if x.if(if/* x", token.kind = .keyword ∧ token.text = "if" ∧
        token.location = ⟨1, 10⟩) ∧
      ∃ token, (Token.scan ".if x.if(if/* x").find? Token.isRemark = some token ∧
        token.location = ⟨1, 12⟩ := by
  have single : '\n' ∉ ".if x.if(if/* x".toList := by decide
  let pieces : Line :=
    [⟨".", .colored Theme.text⟩, ⟨"if", keywordStyle⟩, ⟨" ", .colored Theme.text⟩,
      ⟨"x.if", .colored Theme.text⟩, ⟨"(", .colored Theme.primary⟩, ⟨"if", keywordStyle⟩,
      ⟨"/* x", .colored Theme.comment⟩]
  have split : highlight Text.isAlphanumeric ".if x.if(if/* x".toList = pieces := by decide +kernel
  have agree := (highlight_agrees_with_scan followsAscii_isAlphanumeric _ single).2.2
  exact ⟨followsAscii_isAlphanumeric, single,
    (agree (pieces.take 5) pieces[5] (pieces.drop 6) split).2 rfl,
    (agree (pieces.take 6) pieces[6] [] split).1 rfl⟩

end Viewer

end Quadrupler
