import Quadrupler.Token.Scan
set_option autoImplicit false

/-!
# The tokens of two texts in a row

A line feed ends every lexeme but a block comment, and no lexeme looks past it.  So a text
without a fault is cut in the same way when a line feed and another text follow it.  The
other text is cut in the same way as well if it has no fault on its own: brackets that the
first text leaves open are never reached, and only the places change.
-/

namespace Quadrupler

/-! ## Lexemes before a line feed -/

namespace Lexeme

/-- The lexeme with more text behind it. -/
def before (lexeme : Lexeme) (more : List Char) : Lexeme :=
  { lexeme with rest := lexeme.rest ++ more }

section Stop

variable {p : Char → Bool} {stop : Char}

theorem takeWhile_append_stop (h : p stop = false) (cs ds : List Char) :
    (cs ++ stop :: ds).takeWhile p = cs.takeWhile p := by
  induction cs with
  | nil => simp [h]
  | cons c cs ih => simp only [List.cons_append, List.takeWhile_cons, ih]

theorem dropWhile_append_stop (h : p stop = false) (cs ds : List Char) :
    (cs ++ stop :: ds).dropWhile p = cs.dropWhile p ++ stop :: ds := by
  induction cs with
  | nil => simp [h]
  | cons c cs ih =>
    simp only [List.cons_append, List.dropWhile_cons, ih]
    split
    · rfl
    · rfl

end Stop

theorem closeComment_append_of_some {cs body rest : List Char}
    (h : closeComment cs = some (body, rest)) (more : List Char) :
    closeComment (cs ++ more) = some (body, rest ++ more) := by
  fun_induction closeComment cs generalizing body rest with
  | case1 => cases h
  | case2 tail =>
    cases h
    rfl
  | case3 c tail differs ih =>
    obtain ⟨⟨inner, after⟩, found, same⟩ := Option.map_eq_some_iff.mp h
    cases same
    have differs' : ∀ rest', c = '*' → tail ++ more = '/' :: rest' → False := by
      intro rest' star slash
      cases tail with
      | nil => cases found
      | cons d tail =>
        obtain rfl : d = '/' := (List.cons.inj slash).1
        exact differs tail star rfl
    rw [List.cons_append, closeComment.eq_3 _ _ differs', ih found]
    rfl

theorem fraction_of_ne {c : Char} (h : c ≠ '.') (cs : List Char) :
    fraction (c :: cs) = ([], c :: cs) := by
  rw [fraction]
  intro d rest same
  exact h (List.cons.inj same).1

theorem fraction_append_newline (cs ds : List Char) :
    fraction (cs ++ '\n' :: ds) = ((fraction cs).1, (fraction cs).2 ++ '\n' :: ds) := by
  have digit : Char.isDigit '\n' = false := by decide
  cases cs with
  | nil => rfl
  | cons c cs =>
    by_cases point : c = '.'
    · subst point
      cases cs with
      | nil => rfl
      | cons d rest =>
        rw [List.cons_append, List.cons_append, fraction, fraction]
        split
        · rw [takeWhile_append_stop digit, dropWhile_append_stop digit]
        · rfl
    · rw [List.cons_append, fraction_of_ne point, fraction_of_ne point]
      rfl

theorem isPrefixOf_append_stop {op : List Char} {stop : Char} (h : stop ∉ op)
    (cs ds : List Char) : op.isPrefixOf (cs ++ stop :: ds) = op.isPrefixOf cs := by
  induction op generalizing cs with
  | nil => simp
  | cons o op ih =>
    obtain ⟨differs, others⟩ := not_or.mp (mt List.mem_cons.mpr h)
    cases cs with
    | nil => simp [List.isPrefixOf, Ne.symm differs]
    | cons c cs => simp [List.isPrefixOf, ih others]

/-- A character that no operator contains ends one. -/
theorem operator?_append_stop {stop : Char} (without : ∀ op ∈ operators, stop ∉ op)
    (cs ds : List Char) : operator? (cs ++ stop :: ds) = operator? cs := by
  rw [operator?, operator?, ← List.head?_filter, ← List.head?_filter]
  exact congrArg List.head? <| List.filter_congr fun op member =>
    isPrefixOf_append_stop (without op member) cs ds

theorem head?_append_newline {c : Char} (h : c ≠ '\n') (cs ds : List Char) :
    (cs ++ '\n' :: ds).head? = some c ↔ cs.head? = some c := by
  cases cs with
  | nil => simp [h, eq_comm]
  | cons d cs => simp

theorem first_append_newline {c : Char} {cs : List Char}
    (closed : (first c cs).form ≠ .openComment) (ds : List Char) :
    first c (cs ++ '\n' :: ds) = (first c cs).before ('\n' :: ds) := by
  have slash := head?_append_newline (show '/' ≠ '\n' by decide) cs ds
  have star := head?_append_newline (show '*' ≠ '\n' by decide) cs ds
  have ops : operator? (c :: (cs ++ '\n' :: ds)) = operator? (c :: cs) :=
    operator?_append_stop (by decide) (c :: cs) ds
  unfold first at closed ⊢
  simp only [slash, star, ops]
  split
  · have line : decide ('\n' ≠ '\n') = false := by decide
    rw [takeWhile_append_stop line, dropWhile_append_stop line]
    rfl
  · split
    case isTrue opens =>
      obtain ⟨tail, rfl⟩ : ∃ tail, cs = '*' :: tail := List.head?_eq_some_iff.mp opens.2
      cases found : closeComment tail with
      | none => simp [opens.1, found] at closed
      | some piece =>
        have longer : closeComment (tail ++ '\n' :: ds) = some (piece.1, piece.2 ++ '\n' :: ds) :=
          closeComment_append_of_some found _
        simp only [List.cons_append, List.tail_cons, longer, found]
        rfl
    case isFalse =>
      split
      · have digit : Char.isDigit '\n' = false := by decide
        rw [takeWhile_append_stop digit, dropWhile_append_stop digit, fraction_append_newline]
        rfl
      · split
        · have part : isWordPart '\n' = false := by decide
          rw [takeWhile_append_stop part, dropWhile_append_stop part]
          rfl
        · split
          · rename_i op found
            obtain ⟨rest, same⟩ : ∃ rest, op ++ rest = c :: cs := ⟨_, operator?_append found⟩
            rw [← List.cons_append, ← same]
            simp [before]
          · rfl

end Lexeme

/-! ## Tokens without their places -/

/-- The token moved to the start of the text. -/
def Token.unplaced (token : Token) : Token := { token with location := .start }

/-- Nothing among the tokens is a fault. -/
def Token.Faultless (tokens : List Token) : Prop := ∀ token ∈ tokens, token.kind ≠ .fault

/-- What can be closed can be closed inside further brackets. -/
theorem Brackets.step?_append {opened opened' : List Char} {c : Char}
    (h : step? opened c = some opened') (outer : List Char) :
    step? (opened ++ outer) c = some (opened' ++ outer) := by
  unfold step? at h ⊢
  split at h
  · split at h
    · rename_i innermost
      cases h
      obtain ⟨inner, rfl⟩ := List.head?_eq_some_iff.mp innermost
      simp
    · cases h
  · cases h
    split
    · rfl
    · rfl

namespace Lexeme

variable {lexeme : Lexeme} {here : Location} {opened : List Char}

theorem form_ne_openComment (h : (lexeme.token here opened).1.kind ≠ .fault) :
    lexeme.form ≠ .openComment := by
  intro form
  exact h (by simp [token, form])

theorem token_before (more : List Char) :
    (lexeme.before more).token here opened = lexeme.token here opened := rfl

/-- Elsewhere and inside further brackets, the token is the same but for its place. -/
theorem token_moved (h : (lexeme.token here opened).1.kind ≠ .fault) (there : Location)
    (outer : List Char) :
    (lexeme.token there (opened ++ outer)).1.unplaced = (lexeme.token here opened).1.unplaced ∧
      (lexeme.token there (opened ++ outer)).2 = (lexeme.token here opened).2 ++ outer := by
  unfold token at h ⊢
  split
  case h_6 c form =>
    cases found : Brackets.step? opened c with
    | none => simp [form, found] at h
    | some opened' =>
      rw [Brackets.step?_append found]
      exact ⟨rfl, rfl⟩
  all_goals exact ⟨rfl, rfl⟩

end Lexeme

namespace Token

theorem faultless_cons {token : Token} {tokens : List Token} :
    Faultless (token :: tokens) ↔ token.kind ≠ .fault ∧ Faultless tokens :=
  List.forall_mem_cons

theorem scanFrom_blank {c : Char} (h : Text.isBlank c = true) (here : Location)
    (opened cs : List Char) :
    scanFrom here opened (c :: cs) = scanFrom (here.next c) opened cs := by
  rw [scanFrom, if_pos h]

theorem scanFrom_cons {c : Char} (h : ¬Text.isBlank c = true) (here : Location)
    (opened cs : List Char) :
    scanFrom here opened (c :: cs) =
      ((Lexeme.first c cs).token here opened).1 ::
        scanFrom (here.after (Lexeme.first c cs).chars) ((Lexeme.first c cs).token here opened).2
          (Lexeme.first c cs).rest := by
  rw [scanFrom, if_neg h]

/-- A text without a fault and another one, on lines of their own. -/
theorem scanFrom_append_newline {here : Location} {opened cs : List Char}
    (h : Faultless (scanFrom here opened cs)) (ds : List Char) :
    ∃ opened', scanFrom here opened (cs ++ '\n' :: ds) =
      scanFrom here opened cs ++ scanFrom (here.after (cs ++ ['\n'])) opened' ds := by
  fun_induction scanFrom here opened cs with
  | case1 here opened =>
    refine ⟨opened, ?_⟩
    rw [List.nil_append, scanFrom_blank (by decide)]
    rfl
  | case2 here opened c cs blank ih =>
    obtain ⟨opened', others⟩ := ih h
    refine ⟨opened', ?_⟩
    rw [List.cons_append, scanFrom_blank blank, others]
    rfl
  | case3 here opened c cs visible lexeme made ih =>
    obtain ⟨sound, others⟩ := faultless_cons.mp h
    obtain ⟨opened', behind⟩ := ih others
    refine ⟨opened', ?_⟩
    have longer : Lexeme.first c (cs ++ '\n' :: ds) = lexeme.before ('\n' :: ds) :=
      Lexeme.first_append_newline (Lexeme.form_ne_openComment sound) ds
    have whole : lexeme.chars ++ (lexeme.rest ++ ['\n']) = c :: cs ++ ['\n'] := by
      rw [← List.append_assoc, Lexeme.chars_append_rest]
    rw [List.cons_append, scanFrom_cons visible, longer, Lexeme.token_before, ← whole,
      Location.after_append]
    exact congrArg (made.1 :: ·) behind

/-- A text without a fault, elsewhere and inside further brackets. -/
theorem scanFrom_moved {here : Location} {opened cs : List Char}
    (h : Faultless (scanFrom here opened cs)) (there : Location) (outer : List Char) :
    (scanFrom there (opened ++ outer) cs).map unplaced =
      (scanFrom here opened cs).map unplaced := by
  fun_induction scanFrom here opened cs generalizing there with
  | case1 here opened => simp [scanFrom]
  | case2 here opened c cs blank ih =>
    rw [scanFrom_blank blank]
    exact ih h _
  | case3 here opened c cs visible lexeme made ih =>
    obtain ⟨sound, others⟩ := faultless_cons.mp h
    obtain ⟨same, inside⟩ := Lexeme.token_moved sound there outer
    rw [scanFrom_cons visible, List.map_cons, List.map_cons, same, inside]
    exact congrArg (made.1.unplaced :: ·) (ih others _)

/-- Two texts without faults on lines of their own have the tokens of the first and those of
the second, which stand elsewhere. -/
theorem scan_join {first second : String} (h : Faultless (scan first))
    (h' : Faultless (scan second)) :
    ∃ moved, scan (first ++ "\n" ++ second) = scan first ++ moved ∧
      moved.map unplaced = (scan second).map unplaced := by
  obtain ⟨opened, joined⟩ := scanFrom_append_newline h second.toList
  have tokens : scan (first ++ "\n" ++ second) =
      scan first ++
        scanFrom (Location.start.after (first.toList ++ ['\n'])) opened second.toList := by
    rw [scan, String.toList_append, String.toList_append, List.append_assoc]
    exact joined
  exact ⟨_, tokens, scanFrom_moved h' _ opened⟩

end Token

end Quadrupler
