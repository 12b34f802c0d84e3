import Quadrupler.Proofs.Token.Longest
import Quadrupler.Proofs.Token.Words
set_option autoImplicit false

/-!
# Where tokens must begin

A slash inside a lexeme is part of a comment, and a letter inside a lexeme belongs to a word or to
a comment.  So wherever no comment has begun before, a token begins at every slash, and at every
letter that does not follow a letter, a digit or an underscore, however the text before it is cut.
In particular the first comment of a text begins where two characters that open one first stand.
-/

namespace Quadrupler

/-- A comment, also one that is never closed. -/
def Token.isRemark (token : Token) : Bool :=
  match token.kind with
  | .comment => true
  | .fault => decide (token.text = "unterminated block comment")
  | _ => false

namespace Lexeme

variable {c d : Char} {cs before rest : List Char} {lexeme : Lexeme} {here : Location}
  {opened : List Char}

/-! ## Comments -/

/-- The characters begin a comment. -/
def Opens (cs : List Char) : Prop := ['/', '/'] <+: cs ∨ ['/', '*'] <+: cs

theorem opens_cons_iff :
    Opens (c :: cs) ↔ c = '/' ∧ (cs.head? = some '/' ∨ cs.head? = some '*') := by
  rw [Opens, opens_iff, opens_iff, ← and_or_left]

theorem not_opens_of_ne (h : c ≠ '/') : ¬Opens (c :: cs) :=
  fun opens => h (opens_cons_iff.mp opens).1

theorem Plain.not_opens (h : Plain c cs) : ¬Opens (c :: cs) := by
  intro opens
  obtain ⟨slash, second⟩ := opens_cons_iff.mp opens
  exact second.elim (h.notComment slash).1 (h.notComment slash).2

theorem not_isRemark_of_fault {cause : LexicalFault} (h : cause ≠ .unterminatedComment) :
    ¬Token.isRemark ⟨.fault, cause.message, here⟩ = true :=
  fun remark => LexicalFault.message_ne h (of_decide_eq_true remark)

/-- A token is a comment if and only if its characters open one. -/
theorem Begins.isRemark_iff (h : Begins c cs lexeme) :
    (lexeme.token here opened).1.isRemark = true ↔ Opens (c :: cs) := by
  cases h with
  | lineComment slash head => exact iff_of_true rfl (opens_cons_iff.mpr ⟨slash, .inl head⟩)
  | blockComment slash star closed =>
    subst star
    exact iff_of_true rfl (opens_cons_iff.mpr ⟨slash, .inr rfl⟩)
  | openComment slash star unclosed =>
    subst star
    exact iff_of_true rfl (opens_cons_iff.mpr ⟨slash, .inr rfl⟩)
  | number digit =>
    exact iff_of_false Bool.noConfusion (not_opens_of_ne (ne_slash_of_isDigit digit))
  | word letter =>
    refine iff_of_false ?_ (not_opens_of_ne (ne_slash_of_isAlpha letter))
    simp only [token]
    split
    · exact Bool.noConfusion
    · exact Bool.noConfusion
  | operator plain found => exact iff_of_false Bool.noConfusion plain.not_opens
  | delimiter plain none member =>
    refine iff_of_false ?_ plain.not_opens
    simp only [token]
    split
    · exact Bool.noConfusion
    · exact not_isRemark_of_fault LexicalFault.noConfusion
  | stray plain none other =>
    refine iff_of_false (not_isRemark_of_fault ?_) plain.not_opens
    split
    · exact LexicalFault.noConfusion
    · exact LexicalFault.noConfusion

/-! ## Inside a lexeme -/

theorem not_isAlpha_of_isDigit (h : c.isDigit = true) : ¬c.isAlpha = true :=
  fun letter => absurd (h.symm.trans (not_isDigit_of_isAlpha letter)) (by decide)

/-- Behind the first character of a lexeme that is no comment there is no slash, and a letter only
if all characters are parts of words. -/
theorem Begins.inside (h : Begins c cs lexeme) (plain : ¬Opens (c :: cs))
    (member : d ∈ lexeme.chars.tail) :
    d ≠ '/' ∧ (d.isAlpha = true → ∀ e ∈ lexeme.chars, isWordPart e = true) := by
  cases h with
  | lineComment slash head => exact absurd (opens_cons_iff.mpr ⟨slash, .inl head⟩) plain
  | blockComment slash star closed =>
    subst star
    exact absurd (opens_cons_iff.mpr ⟨slash, .inr rfl⟩) plain
  | openComment slash star unclosed =>
    subst star
    exact absurd (opens_cons_iff.mpr ⟨slash, .inr rfl⟩) plain
  | number digit =>
    have numeral : d.isDigit = true ∨ d = '.' := by
      rcases List.mem_append.mp member with whole | part
      · exact .inl (List.mem_takeWhile_imp whole)
      · rcases fraction_shape (cs.dropWhile Char.isDigit) with none | ⟨ds, some, digits⟩
        · rw [none] at part
          cases part
        · rw [some] at part
          rcases List.mem_cons.mp part with point | member
          · exact .inr point
          · exact .inl (digits.2 d member)
    rcases numeral with digit | rfl
    · exact ⟨ne_slash_of_isDigit digit, fun letter => absurd letter (not_isAlpha_of_isDigit digit)⟩
    · exact ⟨by decide, fun letter => absurd letter (by decide)⟩
  | word letter =>
    have part : isWordPart d = true := List.mem_takeWhile_imp member
    refine ⟨?_, fun _ => List.forall_mem_cons.mpr ⟨isWordPart_of_isAlpha letter, fun e inside =>
      List.mem_takeWhile_imp inside⟩⟩
    rintro rfl
    exact absurd part (by decide)
  | @operator op _ found =>
    have table : (operators.all fun op => op.tail.all fun d => decide (d ≠ '/') && !d.isAlpha) =
        true := by decide
    have sign := List.all_eq_true.mp
      (List.all_eq_true.mp table op (List.mem_of_find?_eq_some found)) d member
    simp only [Bool.and_eq_true, decide_eq_true_eq, Bool.not_eq_true'] at sign
    exact ⟨sign.1, fun letter => absurd (letter.symm.trans sign.2) (by decide)⟩
  | delimiter => cases member
  | stray => cases member

/-! ## Boundaries -/

/-- No lexeme that begins among these characters, and is no comment, goes on with the next one. -/
def Breaks (before : List Char) (d : Char) : Prop :=
  d = '/' ∨ d.isAlpha = true ∧ ∀ e ∈ before.getLast?, isWordPart e = false

/-- No comment begins among the characters in front of the others. -/
def Uncommented (before rest : List Char) : Prop :=
  ∀ behind, behind <:+ before → behind ≠ [] → ¬Opens (behind ++ rest)

theorem Breaks.suffix {behind : List Char} (h : Breaks before d) (part : behind <:+ before) :
    Breaks behind d := by
  refine h.imp_right (And.imp_right fun last e member => last e ?_)
  obtain ⟨front, rfl⟩ := part
  rw [List.getLast?_append, Option.mem_def.mp member]
  rfl

theorem Uncommented.suffix {behind : List Char} (h : Uncommented before rest)
    (part : behind <:+ before) : Uncommented behind rest :=
  fun other inside nonempty => h other (inside.trans part) nonempty

theorem Uncommented.append {front : List Char} (h : Uncommented front (before ++ rest))
    (h' : Uncommented before rest) : Uncommented (front ++ before) rest := by
  rintro behind ⟨others, split⟩ nonempty
  rcases List.append_eq_append_iff.mp split with ⟨part, rfl, rfl⟩ | ⟨part, rfl, rfl⟩
  · rcases eq_or_ne part [] with rfl | some
    · exact h' _ (List.suffix_refl _) nonempty
    · rw [List.append_assoc]
      exact h part (List.suffix_append _ _) some
  · exact h' behind (List.suffix_append _ _) nonempty

theorem uncommented_singleton (h : ¬Opens (c :: rest)) : Uncommented [c] rest := by
  intro behind part nonempty
  rcases List.suffix_cons_iff.mp part with rfl | none
  · exact h
  · exact absurd (List.suffix_nil.mp none) nonempty

theorem uncommented_of_not_mem (h : '/' ∉ before) : Uncommented before rest := by
  intro behind part nonempty
  obtain ⟨c, cs, rfl⟩ := List.exists_cons_of_ne_nil nonempty
  refine not_opens_of_ne ?_
  rintro rfl
  exact h (part.subset List.mem_cons_self)

/-- A lexeme ends before such a character. -/
theorem Begins.ends_before (h : Begins c (before ++ d :: rest) lexeme)
    (whole : lexeme.chars ++ lexeme.rest = c :: (before ++ d :: rest))
    (plain : ¬Opens (c :: (before ++ d :: rest))) (breaks : Breaks (c :: before) d) :
    ∃ behind, c :: before = lexeme.chars ++ behind ∧ lexeme.rest = behind ++ d :: rest := by
  rw [← List.cons_append, List.append_eq_append_iff] at whole
  rcases whole with ⟨behind, text, others⟩ | ⟨beyond, text, others⟩
  · exact ⟨behind, text, others⟩
  · cases beyond with
    | nil => exact ⟨[], by simpa using text.symm, by simpa using others.symm⟩
    | cons d' beyond =>
      -- The lexeme would hold both `d` and the character before it.
      obtain rfl : d = d' := (List.cons.inj others).1
      have member : d ∈ lexeme.chars.tail := by
        rw [text]
        simp
      obtain ⟨slash, parts⟩ := h.inside plain member
      rcases breaks with same | ⟨letter, last⟩
      · exact absurd same slash
      · have final := List.getLast_mem (List.cons_ne_nil c before)
        have part := parts letter ((c :: before).getLast (List.cons_ne_nil c before))
          (by rw [text]; exact List.mem_append_left _ final)
        rw [last _ (List.getLast?_eq_some_getLast (List.cons_ne_nil c before))] at part
        cases part

end Lexeme

namespace Token

open Lexeme

variable {d : Char} {before rest : List Char}

/-- A token begins behind a break, and none of the tokens before it is a comment.  The induction is
on the characters before the break: a blank takes one of them, and a lexeme some, but not more. -/
theorem scanFrom_break (breaks : Breaks before d) (plain : Uncommented before (d :: rest))
    (here : Location) (opened : List Char) :
    ∃ tokens opened', (∀ token ∈ tokens, token.isRemark = false) ∧
      scanFrom here opened (before ++ d :: rest) =
        tokens ++ scanFrom (here.after before) opened' (d :: rest) := by
  induction size : before.length using Nat.strongRecOn generalizing before here opened with
  | ind size ih =>
    subst size
    cases before with
    | nil => exact ⟨[], opened, List.forall_mem_nil _, rfl⟩
    | cons c before =>
      by_cases blank : Text.isBlank c = true
      · have part : before <:+ c :: before := List.suffix_cons c before
        obtain ⟨tokens, opened', remarks, scanned⟩ :=
          ih _ (Nat.lt_succ_self _) (breaks.suffix part) (plain.suffix part) (here.next c) opened
            rfl
        refine ⟨tokens, opened', remarks, ?_⟩
        rw [List.cons_append, scanFrom_blank blank, scanned]
        rfl
      · let lexeme := first c (before ++ d :: rest)
        have rule : Begins c (before ++ d :: rest) lexeme := begins_first _ _
        have unopened : ¬Opens (c :: (before ++ d :: rest)) :=
          plain _ (List.suffix_refl _) (List.cons_ne_nil _ _)
        obtain ⟨behind, text, others⟩ :=
          rule.ends_before (chars_append_rest _ _) unopened breaks
        have part : behind <:+ c :: before := ⟨_, text.symm⟩
        have shorter : behind.length < (c :: before).length := by
          have taken : 0 < lexeme.chars.length := List.length_pos_iff.mpr (chars_ne_nil _ _)
          rw [text, List.length_append]
          omega
        obtain ⟨tokens, opened', remarks, scanned⟩ :=
          ih _ shorter (breaks.suffix part) (plain.suffix part) (here.after lexeme.chars)
            (lexeme.token here opened).2 rfl
        refine ⟨(lexeme.token here opened).1 :: tokens, opened',
          List.forall_mem_cons.mpr ⟨?_, remarks⟩, ?_⟩
        · exact Bool.eq_false_iff.mpr (rule.isRemark_iff.not.mpr unopened)
        · rw [List.cons_append, scanFrom_cons blank, others, scanned, text, Location.after_append]
          rfl

variable {here : Location} {opened cs : List Char}

theorem isWord_of_keyword {word : String} (known : word ∈ keywords) : IsWord word.toList := by
  have table : (keywords.all fun word =>
      word.toList.head?.any Char.isAlpha && word.toList.tail.all Char.isAlphanum) = true := by
    decide
  have letters := List.all_eq_true.mp table word known
  cases text : word.toList with
  | nil => simp [text] at letters
  | cons c cs =>
    simp only [text, List.head?_cons, Option.any_some, List.tail_cons, Bool.and_eq_true,
      List.all_eq_true] at letters
    exact ⟨c, cs, rfl, letters.1, fun d member => .inl (letters.2 d member)⟩

/-- Comments stand only where they open. -/
theorem exists_opens_of_mem {token : Token} (member : token ∈ scanFrom here opened cs)
    (remark : token.isRemark = true) : ∃ before rest, cs = before ++ rest ∧ Opens rest := by
  obtain ⟨before, c, rest, opened', split, rfl⟩ := exists_first_of_mem member
  exact ⟨before, c :: rest, split, (begins_first c rest).isRemark_iff.mp remark⟩

/-- The first comment stands where one first opens. -/
theorem exists_find?_isRemark (plain : Uncommented before rest) (opens : Opens rest) :
    ∃ token, (scanFrom here opened (before ++ rest)).find? isRemark = some token ∧
      token.location = here.after before := by
  cases rest with
  | nil => simp [Opens] at opens
  | cons d rest =>
    obtain ⟨rfl, -⟩ := opens_cons_iff.mp opens
    obtain ⟨tokens, opened', remarks, scanned⟩ := scanFrom_break (.inl rfl) plain here opened
    let token := ((first '/' rest).token (here.after before) opened').1
    have remark : token.isRemark = true := (begins_first '/' rest).isRemark_iff.mpr opens
    have others : tokens.find? isRemark = none :=
      List.find?_eq_none.mpr fun token member => by simp [remarks token member]
    refine ⟨token, ?_, token_location⟩
    rw [scanned, List.find?_append, others, scanFrom_cons (by decide), Option.none_or]
    exact List.find?_cons_of_pos remark

/-- A keyword that stands apart from other parts of words is a token. -/
theorem exists_keyword {word : String} {after : List Char} (known : word ∈ keywords)
    (plain : Uncommented before (word.toList ++ after))
    (left : ∀ e ∈ before.getLast?, isWordPart e = false)
    (right : ∀ e ∈ after.head?, isWordPart e = false) :
    ∃ token ∈ scanFrom here opened (before ++ (word.toList ++ after)),
      token.kind = .keyword ∧ token.text = word ∧ token.location = here.after before := by
  obtain ⟨d, ds, text, letter, parts⟩ := isWord_of_keyword known
  have same : String.ofList (d :: ds) = word := by rw [← text, String.ofList_toList]
  have taken : (ds ++ after).takeWhile isWordPart = ds := by
    rw [List.takeWhile_append_of_pos fun e member => isWordPart_iff.mpr (parts e member)]
    cases after with
    | nil => simp
    | cons e after => simp [right e rfl]
  have token : ∀ here opened,
      ((first d (ds ++ after)).token here opened).1 = ⟨.keyword, word, here⟩ := by
    intro here opened
    rw [(Begins.word letter).first_eq]
    simp only [Lexeme.token, taken, same, if_pos known]
  rw [text, List.cons_append] at plain ⊢
  obtain ⟨tokens, opened', -, scanned⟩ := scanFrom_break (.inr ⟨letter, left⟩) plain here opened
  refine ⟨⟨.keyword, word, here.after before⟩, ?_, rfl, rfl, rfl⟩
  rw [scanned, scanFrom_cons (not_isBlank_of_isAlpha letter), token]
  exact List.mem_append_right _ List.mem_cons_self

end Token

end Quadrupler
