import Mathlib.Data.List.Infix
import Mathlib.Data.List.TakeWhile
import Quadrupler.Proofs.Token.Segments
set_option autoImplicit false

/-!
# Longest matches

What words, numbers, operators and comments look like is said here by shapes of texts, without
cutting anything off.  A token takes the longest text of its shape that the rest of the source
begins with.  Only a comment that opens with a slash and a star takes the shortest, since it ends
where it can.  These rules decide the tokens: no text begins with two of the shapes, the slash that
opens a comment apart, which is no operator.
-/

namespace Quadrupler

namespace Lexeme

variable {c : Char} {cs text text' : List Char} {shape : List Char → Prop} {lexeme : Lexeme}

/-! ## Shapes -/

/-- A letter, and letters, digits and underscores. -/
def IsWord (text : List Char) : Prop :=
  ∃ c cs, text = c :: cs ∧ c.isAlpha = true ∧ ∀ d ∈ cs, d.isAlphanum = true ∨ d = '_'

def IsDigits (text : List Char) : Prop := text ≠ [] ∧ ∀ d ∈ text, d.isDigit = true

/-- Digits, and perhaps a point with more digits behind it. -/
def IsNumber (text : List Char) : Prop :=
  IsDigits text ∨ ∃ whole part, text = whole ++ '.' :: part ∧ IsDigits whole ∧ IsDigits part

/-- One of the nine words that are no identifiers. -/
def IsKeyword (text : List Char) : Prop :=
  String.ofList text ∈
    ["if", "else", "while", "for", "return", "do", "switch", "case", "default"]

/-- One of the seventeen operators. -/
def IsOperator (text : List Char) : Prop :=
  String.ofList text ∈
    ["+", "-", "*", "/", "%", "^", "=", "==", "!=", "<", ">", "<=", ">=", "&&", "||", "++", "--"]

/-- Two slashes, and no end of the line. -/
def IsLineComment (text : List Char) : Prop := ['/', '/'] <+: text ∧ '\n' ∉ text

/-- A slash with a star, and the two the other way round somewhere behind them. -/
def IsBlockComment (text : List Char) : Prop :=
  ∃ body, text = '/' :: '*' :: body ∧ ['*', '/'] <:+: body

theorem mem_keywords_iff : String.ofList text ∈ Token.keywords ↔ IsKeyword text := Iff.rfl

theorem mem_operators_iff : text ∈ operators ↔ IsOperator text := by
  rw [IsOperator, ← List.mem_map_of_injective fun _ _ => String.ofList_injective]
  exact List.Perm.mem_iff (by decide +kernel)

/-! ## Longest and shortest texts -/

/-- The longest text of the shape that the characters begin with. -/
structure Longest (shape : List Char → Prop) (cs text : List Char) : Prop where
  front : text <+: cs
  fits : shape text
  most : ∀ other, other <+: cs → shape other → other.length ≤ text.length

/-- The shortest text of the shape that the characters begin with. -/
structure Shortest (shape : List Char → Prop) (cs text : List Char) : Prop where
  front : text <+: cs
  fits : shape text
  least : ∀ other, other <+: cs → shape other → text.length ≤ other.length

theorem eq_of_front (h : text <+: cs) (h' : text' <+: cs) (same : text.length = text'.length) :
    text = text' :=
  (List.prefix_of_prefix_length_le h h' (Nat.le_of_eq same)).eq_of_length same

theorem Longest.unique (h : Longest shape cs text) (h' : Longest shape cs text') : text = text' :=
  eq_of_front h.front h'.front
    (Nat.le_antisymm (h'.most text h.front h.fits) (h.most text' h'.front h'.fits))

theorem Shortest.unique (h : Shortest shape cs text) (h' : Shortest shape cs text') :
    text = text' :=
  eq_of_front h.front h'.front
    (Nat.le_antisymm (h.least text' h'.front h'.fits) (h'.least text h.front h.fits))

theorem front_takeWhile {p : Char → Bool} (front : text <+: cs) (all : ∀ d ∈ text, p d = true) :
    text <+: cs.takeWhile p := by
  obtain ⟨rest, rfl⟩ := front
  rw [List.takeWhile_append_of_pos all]
  exact List.prefix_append text _

/-! ## What each lexeme is -/

theorem isWordPart_iff : isWordPart c = true ↔ c.isAlphanum = true ∨ c = '_' := by
  simp [isWordPart]

theorem isWordPart_of_isAlpha (h : c.isAlpha = true) : isWordPart c = true :=
  isWordPart_iff.mpr (.inl ((Bool.or_eq_true _ _).mpr (.inl h)))

theorem longest_word (letter : c.isAlpha = true) :
    Longest IsWord (c :: cs) (c :: cs.takeWhile isWordPart) where
  front := List.cons_prefix_cons.mpr ⟨rfl, List.takeWhile_prefix isWordPart⟩
  fits := ⟨c, _, rfl, letter, fun _ member => isWordPart_iff.mp (List.mem_takeWhile_imp member)⟩
  most := by
    rintro other front ⟨d, ds, rfl, -, parts⟩
    obtain ⟨-, front⟩ := List.cons_prefix_cons.mp front
    have inside : ds <+: cs.takeWhile isWordPart :=
      front_takeWhile front fun e member => isWordPart_iff.mpr (parts e member)
    exact Nat.succ_le_succ inside.length_le

/-- A fraction is empty or a point with digits. -/
theorem fraction_shape (cs : List Char) :
    (fraction cs).1 = [] ∨ ∃ ds, (fraction cs).1 = '.' :: ds ∧ IsDigits ds := by
  fun_cases fraction cs with
  | case1 d rest digit =>
    refine .inr ⟨_, rfl, List.cons_ne_nil _ _, List.forall_mem_cons.mpr ⟨digit, ?_⟩⟩
    exact fun e member => List.mem_takeWhile_imp member
  | case2 d rest other => exact .inl rfl
  | case3 other => exact .inl rfl

/-- A fraction takes the digits behind a point. -/
theorem front_fraction {part rest : List Char} (digits : IsDigits part) :
    '.' :: part <+: (fraction ('.' :: part ++ rest)).1 := by
  obtain ⟨nonempty, all⟩ := digits
  obtain ⟨d, ds, rfl⟩ := List.exists_cons_of_ne_nil nonempty
  obtain ⟨digit, others⟩ := List.forall_mem_cons.mp all
  rw [List.cons_append, List.cons_append, fraction, if_pos digit,
    List.takeWhile_append_of_pos others]
  exact List.prefix_append ('.' :: d :: ds) _

theorem longest_digits (digits : cs.takeWhile Char.isDigit ≠ []) :
    Longest IsNumber cs
      (cs.takeWhile Char.isDigit ++ (fraction (cs.dropWhile Char.isDigit)).1) where
  front := by
    have point : (fraction (cs.dropWhile Char.isDigit)).1 <+: cs.dropWhile Char.isDigit :=
      ⟨_, fraction_append _⟩
    have whole : cs.takeWhile Char.isDigit ++ cs.dropWhile Char.isDigit = cs :=
      List.takeWhile_append_dropWhile
    have longer := (List.prefix_append_right_inj (cs.takeWhile Char.isDigit)).mpr point
    rwa [whole] at longer
  fits := by
    have whole : IsDigits (cs.takeWhile Char.isDigit) :=
      ⟨digits, fun d member => List.mem_takeWhile_imp member⟩
    rcases fraction_shape (cs.dropWhile Char.isDigit) with none | ⟨part, some, digits'⟩
    · rw [none, List.append_nil]
      exact .inl whole
    · rw [some]
      exact .inr ⟨_, part, rfl, whole, digits'⟩
  most := by
    rintro other front (⟨-, all⟩ | ⟨whole, part, rfl, ⟨-, all⟩, digits'⟩)
    · have inside := (front_takeWhile front all).length_le
      rw [List.length_append]
      omega
    · -- Up to the point both are the digits in front, and behind it the fraction takes all.
      obtain ⟨rest, rfl⟩ := front
      have point : Char.isDigit '.' = false := by decide
      have taken : (whole ++ '.' :: part ++ rest).takeWhile Char.isDigit = whole := by
        rw [List.append_assoc, List.takeWhile_append_of_pos all]
        simp [point]
      have left : (whole ++ '.' :: part ++ rest).dropWhile Char.isDigit = '.' :: part ++ rest := by
        rw [List.append_assoc, List.dropWhile_append_of_pos all]
        simp [point]
      have inside := (front_fraction digits' : '.' :: part <+: (fraction ('.' :: part ++ rest)).1)
      rw [taken, left, List.length_append, List.length_append]
      exact Nat.add_le_add_left inside.length_le _

theorem longest_number (digit : c.isDigit = true) :
    Longest IsNumber (c :: cs)
      (c :: cs.takeWhile Char.isDigit ++ (fraction (cs.dropWhile Char.isDigit)).1) := by
  have taken : (c :: cs).takeWhile Char.isDigit = c :: cs.takeWhile Char.isDigit := by
    simp [digit]
  have left : (c :: cs).dropWhile Char.isDigit = cs.dropWhile Char.isDigit := by
    simp [digit]
  have longest := longest_digits (show (c :: cs).takeWhile Char.isDigit ≠ [] by simp [taken])
  rwa [taken, left] at longest

/-- The table goes from longer operators to shorter ones, so the first that fits is the longest. -/
theorem longest_operator {op : List Char} (found : operator? cs = some op) :
    Longest IsOperator cs op where
  front := ⟨_, operator?_append found⟩
  fits := mem_operators_iff.mp (List.mem_of_find?_eq_some found)
  most := by
    intro other front known
    rw [← mem_operators_iff] at known
    have sorted : operators.Pairwise fun op other => other.length ≤ op.length := by decide
    obtain ⟨-, before, after, table, skipped⟩ := List.find?_eq_some_iff_append.mp found
    rw [table, List.pairwise_append, List.pairwise_cons] at sorted
    rw [table, List.mem_append, List.mem_cons] at known
    rcases known with earlier | rfl | later
    · have differs := skipped other earlier
      simp [List.isPrefixOf_iff_prefix.mpr front] at differs
    · exact Nat.le_refl _
    · exact sorted.2.1.1 other later

theorem longest_lineComment (slash : c = '/') (head : cs.head? = some '/') :
    Longest IsLineComment (c :: cs) (c :: cs.takeWhile (· ≠ '\n')) where
  front := List.cons_prefix_cons.mpr ⟨rfl, List.takeWhile_prefix _⟩
  fits := by
    obtain ⟨tail, rfl⟩ := List.head?_eq_some_iff.mp head
    refine ⟨⟨tail.takeWhile (· ≠ '\n'), by simp [slash]⟩, fun member => ?_⟩
    rcases List.mem_cons.mp member with feed | member
    · rw [slash] at feed
      exact absurd feed (by decide)
    · have other := List.mem_takeWhile_imp member
      simp at other
  most := by
    rintro other front ⟨-, line⟩
    have all : ∀ d ∈ other, decide (d ≠ '\n') = true := by
      intro d member
      refine decide_eq_true ?_
      rintro rfl
      exact line member
    have inside := front_takeWhile front all
    simpa [slash] using inside.length_le

/-- What closes a comment ends with its first star and slash. -/
theorem shortest_closeComment {body rest : List Char}
    (closed : closeComment cs = some (body, rest)) :
    Shortest (fun body => ['*', '/'] <:+: body) cs body := by
  fun_induction closeComment cs generalizing body rest with
  | case1 => cases closed
  | case2 tail =>
    cases closed
    exact ⟨⟨tail, rfl⟩, List.infix_refl _, fun other _ inside => inside.length_le⟩
  | case3 c tail differs ih =>
    obtain ⟨⟨inner, after⟩, found, same⟩ := Option.map_eq_some_iff.mp closed
    cases same
    have shortest := ih found
    refine ⟨List.cons_prefix_cons.mpr ⟨rfl, shortest.front⟩, List.infix_cons shortest.fits, ?_⟩
    intro other front inside
    cases other with
    | nil => simp at inside
    | cons d other =>
      obtain ⟨rfl, behind⟩ := List.cons_prefix_cons.mp front
      rcases List.infix_cons_iff.mp inside with here | later
      · obtain ⟨star, slash⟩ := List.cons_prefix_cons.mp here
        obtain ⟨tail', rfl⟩ := slash.trans behind
        exact (differs tail' star.symm rfl).elim
      · exact Nat.succ_le_succ (shortest.least other behind later)

theorem shortest_blockComment {tail body rest : List Char}
    (closed : closeComment tail = some (body, rest)) :
    Shortest IsBlockComment ('/' :: '*' :: tail) ('/' :: '*' :: body) := by
  have inner := shortest_closeComment closed
  refine ⟨?_, ⟨body, rfl, inner.fits⟩, ?_⟩
  · exact (List.prefix_append_right_inj ['/', '*']).mpr inner.front
  · rintro other front ⟨body', rfl, fits⟩
    have front' : body' <+: tail := (List.prefix_append_right_inj ['/', '*']).mp front
    exact Nat.add_le_add_right (inner.least body' front' fits) 2

/-! ## The rule of longest matches -/

/-- A token of the kind takes this text from the front of the characters. -/
inductive Munches (cs : List Char) : TokenKind → List Char → Prop where
  | keyword {text : List Char} : Longest IsWord cs text → IsKeyword text → Munches cs .keyword text
  | identifier {text : List Char} : Longest IsWord cs text → ¬IsKeyword text →
      Munches cs .identifier text
  | number {text : List Char} : Longest IsNumber cs text → Munches cs .number text
  | operator {text : List Char} : Longest IsOperator cs text → ¬['/', '/'] <+: cs →
      ¬['/', '*'] <+: cs → Munches cs .operator text
  | lineComment {text : List Char} : Longest IsLineComment cs text → Munches cs .comment text
  | blockComment {text : List Char} : Shortest IsBlockComment cs text → Munches cs .comment text

theorem opens_iff {d : Char} : ['/', d] <+: c :: cs ↔ c = '/' ∧ cs.head? = some d := by
  rw [List.cons_prefix_cons]
  cases cs with
  | nil => simp
  | cons e tail => simp [List.cons_prefix_cons, eq_comm]

/-- A token that is neither a delimiter nor a fault takes its text so. -/
theorem Begins.munches (h : Begins c cs lexeme) {here : Location} {opened : List Char}
    (delimiter : (lexeme.token here opened).1.kind ≠ .delimiter)
    (fault : (lexeme.token here opened).1.kind ≠ .fault) :
    Munches (c :: cs) (lexeme.token here opened).1.kind
      (lexeme.token here opened).1.text.toList := by
  rw [token_text fault, String.toList_ofList]
  cases h with
  | lineComment slash head => exact .lineComment (longest_lineComment slash head)
  | blockComment slash star closed =>
    subst slash star
    exact .blockComment (shortest_blockComment closed)
  | openComment => exact absurd rfl fault
  | number digit => exact .number (longest_number digit)
  | word letter =>
    simp only [token]
    split
    · rename_i known
      exact .keyword (longest_word letter) (mem_keywords_iff.mp known)
    · rename_i unknown
      exact .identifier (longest_word letter) (mt mem_keywords_iff.mpr unknown)
  | operator plain found =>
    refine .operator (longest_operator found) (fun opens => ?_) (fun opens => ?_)
    · obtain ⟨slash, head⟩ := opens_iff.mp opens
      exact (plain.notComment slash).1 head
    · obtain ⟨slash, head⟩ := opens_iff.mp opens
      exact (plain.notComment slash).2 head
  | delimiter plain none member =>
    cases found : Brackets.step? opened c with
    | none => simp [token, found] at fault
    | some opened' => simp [token, found] at delimiter
  | stray => exact absurd rfl fault

/-! ## Shapes tell lexemes apart -/

theorem IsWord.isAlpha_head (h : IsWord text) (front : text <+: c :: cs) : c.isAlpha = true := by
  obtain ⟨d, ds, rfl, letter, -⟩ := h
  obtain ⟨rfl, -⟩ := List.cons_prefix_cons.mp front
  exact letter

theorem IsDigits.isDigit_head (h : IsDigits text) (front : text <+: c :: cs) :
    c.isDigit = true := by
  obtain ⟨nonempty, all⟩ := h
  obtain ⟨d, ds, rfl⟩ := List.exists_cons_of_ne_nil nonempty
  obtain ⟨rfl, -⟩ := List.cons_prefix_cons.mp front
  exact all d List.mem_cons_self

theorem IsNumber.isDigit_head (h : IsNumber text) (front : text <+: c :: cs) :
    c.isDigit = true := by
  rcases h with digits | ⟨whole, part, rfl, digits, -⟩
  · exact digits.isDigit_head front
  · exact digits.isDigit_head ((List.prefix_append whole _).trans front)

/-- Operators begin with neither digits nor letters. -/
theorem IsOperator.sign (known : IsOperator text) (front : text <+: c :: cs) :
    c.isDigit = false ∧ c.isAlpha = false := by
  have table : ∀ op ∈ operators,
      op ≠ [] ∧ (op.head?.all fun d => !d.isDigit && !d.isAlpha) = true := by decide
  obtain ⟨nonempty, sign⟩ := table text (mem_operators_iff.mpr known)
  obtain ⟨d, ds, rfl⟩ := List.exists_cons_of_ne_nil nonempty
  obtain ⟨rfl, -⟩ := List.cons_prefix_cons.mp front
  simpa using sign

theorem IsOperator.exists_operator (known : IsOperator text) (front : text <+: cs) :
    ∃ op, operator? cs = some op := by
  rw [← Option.isSome_iff_exists, operator?, List.find?_isSome]
  exact ⟨text, mem_operators_iff.mpr known, List.isPrefixOf_iff_prefix.mpr front⟩

/-- What is taken so is the text of the first lexeme. -/
theorem Munches.token_first {kind : TokenKind} (h : Munches (c :: cs) kind text)
    (here : Location) (opened : List Char) :
    ((first c cs).token here opened).1 = ⟨kind, String.ofList text, here⟩ := by
  cases h with
  | keyword longest known =>
    have letter := longest.fits.isAlpha_head longest.front
    obtain rfl := longest.unique (longest_word letter)
    rw [(Begins.word letter).first_eq]
    simp only [token, if_pos (mem_keywords_iff.mpr known)]
  | identifier longest unknown =>
    have letter := longest.fits.isAlpha_head longest.front
    obtain rfl := longest.unique (longest_word letter)
    rw [(Begins.word letter).first_eq]
    simp only [token, if_neg (mt mem_keywords_iff.mp unknown)]
  | number longest =>
    have digit := longest.fits.isDigit_head longest.front
    obtain rfl := longest.unique (longest_number digit)
    rw [(Begins.number digit).first_eq]
    rfl
  | operator longest notLine notBlock =>
    obtain ⟨op, found⟩ := longest.fits.exists_operator longest.front
    obtain ⟨digit, letter⟩ := longest.fits.sign longest.front
    obtain rfl := longest.unique (longest_operator found)
    have plain : Plain c cs :=
      ⟨fun slash => ⟨fun head => notLine (opens_iff.mpr ⟨slash, head⟩),
        fun head => notBlock (opens_iff.mpr ⟨slash, head⟩)⟩, digit, letter⟩
    rw [(Begins.operator plain found).first_eq]
    rfl
  | lineComment longest =>
    obtain ⟨tail, same⟩ := longest.fits.1.trans longest.front
    cases same
    obtain rfl := longest.unique (longest_lineComment rfl rfl)
    rw [(Begins.lineComment rfl rfl).first_eq]
    rfl
  | blockComment shortest =>
    obtain ⟨body, rfl, closes⟩ := shortest.fits
    obtain ⟨rest, same⟩ := shortest.front
    obtain ⟨rfl, rfl⟩ := List.cons.inj same
    rw [List.append_eq, List.cons_append] at shortest ⊢
    cases closed : closeComment (body ++ rest) with
    | none =>
      have inside : ['*', '/'] <:+: body ++ rest := closes.trans (List.prefix_append _ _).isInfix
      exact absurd inside (closeComment_eq_none_iff.mp closed)
    | some found =>
      obtain ⟨body', rest'⟩ := found
      rw [shortest.unique (shortest_blockComment closed),
        (Begins.blockComment rfl rfl closed).first_eq]
      rfl

end Lexeme

/-! ## Where tokens stand -/

namespace Location

/-- Further characters lead to another place. -/
theorem eq_nil_of_after_append {cs more : List Char}
    (h : start.after (cs ++ more) = start.after cs) : more = [] := by
  rw [start_after, start_after, Location.mk.injEq, List.count_append, List.reverse_append] at h
  obtain ⟨line, column⟩ := h
  have none : ∀ d ∈ more.reverse, decide (d ≠ '\n') = true := by
    intro d member
    refine decide_eq_true ?_
    rintro rfl
    have := List.count_pos_iff.mpr (List.mem_reverse.mp member)
    omega
  rw [List.takeWhile_append_of_pos none, List.length_append, List.length_reverse] at column
  exact List.length_eq_zero_iff.mp (by omega)

/-- Two places of one text are the same only if the same characters lie before them. -/
theorem eq_of_after_eq {before before' cs : List Char} (h : before <+: cs) (h' : before' <+: cs)
    (same : start.after before = start.after before') : before = before' := by
  rcases List.prefix_or_prefix_of_prefix h h' with ⟨more, rfl⟩ | ⟨more, rfl⟩
  · rw [eq_nil_of_after_append same.symm, List.append_nil]
  · rw [eq_nil_of_after_append same, List.append_nil]

end Location

namespace Token

variable {token : Token} {here : Location} {opened cs : List Char}

/-- Every token is that of a lexeme somewhere in the text. -/
theorem exists_first_of_mem (h : token ∈ scanFrom here opened cs) :
    ∃ before c rest opened', cs = before ++ c :: rest ∧
      token = ((Lexeme.first c rest).token (here.after before) opened').1 := by
  fun_induction scanFrom here opened cs with
  | case1 => cases h
  | case2 here opened c cs blank ih =>
    obtain ⟨before, d, rest, opened', rfl, same⟩ := ih h
    exact ⟨c :: before, d, rest, opened', rfl, same⟩
  | case3 here opened c cs visible lexeme made ih =>
    rcases List.mem_cons.mp h with same | member
    · exact ⟨[], c, cs, opened, rfl, same⟩
    · obtain ⟨before, d, rest, opened', split, same⟩ := ih member
      refine ⟨lexeme.chars ++ before, d, rest, opened', ?_, ?_⟩
      · rw [List.append_assoc, ← split]
        exact (Lexeme.chars_append_rest c cs).symm
      · rw [same, Location.after_append]

/-- The token begins where these characters of the text do. -/
def StandsBefore (source : String) (token : Token) (cs : List Char) : Prop :=
  ∃ before, source.toList = before ++ cs ∧ token.location = Location.start.after before

/-- Tokens are longest matches.  A token begins in front of one rest of the text.  If it is neither
a delimiter nor a fault, it takes its text from there by the rule for its kind; and if some rule
applies there, the token is what this rule takes. -/
theorem scan_longest {source : String} {token : Token} (member : token ∈ scan source) :
    ∃ cs, token.StandsBefore source cs ∧ (∀ other, token.StandsBefore source other → other = cs) ∧
      (token.kind ≠ .delimiter → token.kind ≠ .fault →
        Lexeme.Munches cs token.kind token.text.toList) ∧
      ∀ kind text, Lexeme.Munches cs kind text →
        token.kind = kind ∧ token.text = String.ofList text := by
  obtain ⟨before, c, rest, opened, split, same⟩ := exists_first_of_mem member
  have place : token.location = Location.start.after before := by
    rw [same]
    exact Lexeme.token_location
  refine ⟨c :: rest, ⟨before, split, place⟩, ?_, ?_, ?_⟩
  · rintro other ⟨before', split', place'⟩
    obtain rfl : before = before' := Location.eq_of_after_eq ⟨_, split.symm⟩ ⟨_, split'.symm⟩
      (place.symm.trans place')
    exact List.append_cancel_left (split'.symm.trans split)
  · rw [same]
    exact (Lexeme.begins_first c rest).munches
  · intro kind text munches
    rw [same, munches.token_first]
    exact ⟨rfl, rfl⟩

/-- Of three signs, an operator takes the two that are one. -/
theorem scan_longest_lessEqual :
    let source := "<==/*/*/1.2.3"
    let token : Token := ⟨.operator, "<=", ⟨1, 1⟩⟩
    token ∈ scan source ∧
      ∃ cs, token.StandsBefore source cs ∧
        (∀ other, token.StandsBefore source other → other = cs) ∧
        (token.kind ≠ .delimiter → token.kind ≠ .fault →
          Lexeme.Munches cs token.kind token.text.toList) ∧
        ∀ kind text, Lexeme.Munches cs kind text →
          token.kind = kind ∧ token.text = String.ofList text := by
  intro source token
  have member : token ∈ scan source := by decide +kernel
  exact ⟨member, scan_longest member⟩

/-- A second point ends a number, an operator takes two signs of three, and the star that opens a
comment does not close it. -/
example : (scan "1.2.3 +++/*/*/iffy if/if").map Token.text =
    ["1.2", ".", "3", "++", "+", "/*/*/", "iffy", "if", "/", "if"] := by
  decide +kernel

end Token

end Quadrupler
