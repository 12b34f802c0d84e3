import Quadrupler.Proofs.Syntax.Brackets
import Quadrupler.Proofs.Syntax.Earliest
set_option autoImplicit false

/-!
# What a stuck step is to blame for

A step is stuck for one of three reasons.  It may have met a token that does not belong there,
where something other than a brace could stand.  It may have met a token that opens a level when
there was none left.  Or a brace is missing, and then it depends on the braces that are open
whether the brace is asked for or a level: blocks and the arms of switches take their level before
they look for their brace.

What is shown here for combinations of steps follows the lemmas on prompt steps.
-/

namespace Quadrupler

/-- The token opens a level of nesting: a parenthesis, a brace or an operator between operands. -/
def Token.opensLevel (token : Token) : Bool :=
  token.is .delimiter "(" || token.is .delimiter Syntax.openBrace ||
    token.kind = .operator && (BinaryOp.ofSymbol? token.text).isSome

/-- How many braces are opened. -/
def Token.bracesOpened (tokens : List Token) : Nat := (brackets tokens).count '{'

/-- How many braces are closed. -/
def Token.bracesClosed (tokens : List Token) : Nat := (brackets tokens).count '}'

theorem Brackets.Nested.count_eq {cs : List Char} (h : Nested cs) :
    cs.count '{' = cs.count '}' := by
  have partners : ∀ pair ∈ pairs, pair.1 ≠ '}' ∧ pair.2 ≠ '{' ∧ (pair.1 = '{' ↔ pair.2 = '}') := by
    decide
  induction h with
  | nil => rfl
  | @pair left right inner rest member _ _ ih ih' =>
    obtain ⟨notClosing, notOpening, same⟩ := partners _ member
    simp only [List.cons_append, List.count_cons, List.count_append, ih, ih', beq_iff_eq, same,
      if_neg notClosing, if_neg notOpening]
    omega

namespace Syntax

open Grammar Token
open scoped Computability

variable {α β : Type} {L M : Language Token} {tokens used : List Token}

/-! ## Braces of words -/

theorem bracesOpened_append (tokens others : List Token) :
    bracesOpened (tokens ++ others) = bracesOpened tokens + bracesOpened others := by
  rw [bracesOpened, brackets_append, List.count_append]
  rfl

theorem bracesClosed_append (tokens others : List Token) :
    bracesClosed (tokens ++ others) = bracesClosed tokens + bracesClosed others := by
  rw [bracesClosed, brackets_append, List.count_append]
  rfl

/-- The words of the language close the braces they open. -/
def Balanced (L : Language Token) : Prop := ∀ word ∈ L, bracesOpened word = bracesClosed word

theorem balanced_derived {G : Derivation α}
    (h : ∀ {used x levels}, G used x levels → Brackets.Nested (brackets used)) :
    Balanced (derived G) := by
  rintro word ⟨x, levels, derivation⟩
  exact (h derivation).count_eq

/-- So many levels are free behind the token if so many are free before it, as far as braces
count. -/
def Shifts (token : Token) (free inner : Nat) : Prop :=
  bracesOpened [token] + inner = bracesClosed [token] + free

theorem shifts_of_is {token : Token} {kind : TokenKind} {text : String} {free : Nat}
    (h : token.is kind text = true)
    (plain : bracesOpened [⟨kind, text, .start⟩] = bracesClosed [⟨kind, text, .start⟩]) :
    Shifts token free free := by
  obtain ⟨rfl, rfl⟩ := Token.is_iff.mp h
  exact congrArg (· + free) plain

theorem shifts_of_kind {token : Token} {free : Nat} (h : token.kind ≠ .delimiter) :
    Shifts token free free := by
  rw [Shifts, bracesOpened, bracesClosed, brackets_cons_none (bracket?_of_kind h)]
  rfl

theorem shifts_brace {token : Token} {free : Nat} (h : token.is .delimiter openBrace = true) :
    Shifts token (free + 1) free := by
  have opens : token.bracket? = some '{' := (bracket?_of_is h).trans (by decide)
  rw [Shifts, bracesOpened, bracesClosed, brackets_cons_some opens]
  simp [brackets]
  omega

/-- Some word of the language goes on from the tokens with one that is no brace. -/
def Avoids (L : Language Token) (used : List Token) : Prop :=
  ∃ token more, token.is .delimiter openBrace = false ∧ used ++ token :: more ∈ L

theorem Avoids.mono (h : Avoids L used) (le : L ≤ M) : Avoids M used := by
  obtain ⟨token, more, other, word⟩ := h
  exact ⟨token, more, other, le word⟩

theorem Avoids.mul (h : Avoids L used) (others : Viable M []) : Avoids (L * M) used := by
  obtain ⟨token, more, other, word⟩ := h
  obtain ⟨word', others⟩ := others
  refine ⟨token, more ++ word', other, ?_⟩
  rw [← List.cons_append, ← List.append_assoc]
  exact Language.append_mem_mul word others

theorem avoids_append {used' : List Token} (h : used ∈ L) (h' : Avoids M used') :
    Avoids (L * M) (used ++ used') := by
  obtain ⟨token, more, other, word⟩ := h'
  refine ⟨token, more, other, ?_⟩
  rw [List.append_assoc]
  exact Language.append_mem_mul h word

/-! ## Reasons to be stuck -/

/-- Why a step is stuck that has used these tokens of a word.  The step to compare with has more
than the `free` levels.  Where a brace is missing, at least `least` tokens have been used. -/
inductive Blame (L : Language Token) (step : Step α) (free least : Nat) (used : List Token)
    (stuck : Stuck) : Prop where
  | other : stuck.expected ≠ .fewerLevels → stuck.expected ≠ .exactly openBrace → Avoids L used →
      Blame L step free least used stuck
  | opening {token : Token} : stuck.expected = .fewerLevels → stuck.rest.head? = some token →
      token.opensLevel = true → Viable L (used ++ [token]) → Blame L step free least used stuck
  | missing : least ≤ used.length → begins .delimiter openBrace stuck.rest = false →
      (∀ other : List Token, begins .delimiter openBrace other = false →
        ∃ left, step (used ++ other) = .error ⟨.exactly openBrace, other, left⟩) →
      (stuck.expected = .fewerLevels ∧ bracesOpened used = bracesClosed used + free ∨
        stuck.expected = .exactly openBrace ∧ bracesOpened used < bracesClosed used + free) →
      Blame L step free least used stuck

def Blames (L : Language Token) (step : Step α) (free least : Nat) (tokens : List Token) :
    Except Stuck (α × List Token) → Prop
  | .ok _ => True
  | .error stuck => ∃ used, tokens = used ++ stuck.rest ∧ Blame L step free least used stuck

/-- A step that succeeds does so again where the used tokens stand before a token like the next
one or, if it looks at none, wherever they stand. -/
def Resumes (L : Language Token) (step : Step α) (look : Nat) (tokens : List Token) :
    Except Stuck (α × List Token) → Prop
  | .ok (x, rest) =>
    ∃ used, tokens = used ++ rest ∧ used ∈ L ∧
      ∀ other : List Token, look = 0 ∨ other.head? = rest.head? →
        step (used ++ other) = .ok (x, other)
  | .error _ => True

theorem PromptAt.resumes {step : Step α} {result : Except Stuck (α × List Token)}
    (h : PromptAt L step tokens result) : Resumes L step 1 tokens result := by
  cases result with
  | error stuck => trivial
  | ok read =>
    obtain ⟨used, split, word, again⟩ := h
    refine ⟨used, split, word, fun other same => again other ?_⟩
    exact same.resolve_left Nat.one_ne_zero

theorem resumes_of_complete {G : Derivation α} {free free' : Nat} {step step' : Step α}
    (sound : Sound free G step) (complete : Complete free' G anything step') (more : free ≤ free')
    (tokens : List Token) : Resumes (derived G) step' 0 tokens (step tokens) := by
  cases read : step tokens with
  | error stuck => trivial
  | ok result =>
    obtain ⟨x, rest⟩ := result
    obtain ⟨used, levels, split, derivation, enough⟩ := sound read
    exact ⟨used, split, ⟨x, levels, derivation⟩,
      fun other _ => complete derivation (enough.trans more) trivial⟩

/-- The reason stays the same in a larger word, if the step fails there as well. -/
theorem Blame.imp {step : Step α} {step' : Step β} {free free' least least' : Nat}
    {used' : List Token} {stuck : Stuck} (h : Blame L step free least used stuck)
    (avoids : Avoids L used → Avoids M used')
    (viable : ∀ {token}, Viable L (used ++ [token]) → Viable M (used' ++ [token]))
    (fails : least ≤ used.length → least' ≤ used'.length ∧
      ∀ other e, step (used ++ other) = .error e → step' (used' ++ other) = .error e)
    (levels : bracesOpened used' + (bracesClosed used + free) =
      bracesOpened used + (bracesClosed used' + free')) :
    Blame M step' free' least' used' stuck := by
  cases h with
  | other limit brace avoided => exact .other limit brace (avoids avoided)
  | opening limit next opens begun => exact .opening limit next opens (viable begun)
  | missing long absent asks unclosed =>
    obtain ⟨long', fails⟩ := fails long
    refine .missing long' absent (fun other absent' => ?_) ?_
    · obtain ⟨left, failed⟩ := asks other absent'
      exact ⟨left, fails other _ failed⟩
    · exact unclosed.imp (And.imp_right (by omega)) (And.imp_right (by omega))

namespace Blames

variable {step step' : Step α} {result : Except Stuck (α × List Token)} {free least : Nat}

theorem mono (h : Blames L step free least tokens result) (le : L ≤ M) :
    Blames M step free least tokens result := by
  cases result with
  | ok read => trivial
  | error stuck =>
    obtain ⟨used, split, blame⟩ := h
    exact ⟨used, split, blame.imp (·.mono le) (·.mono le) (fun long => ⟨long, fun _ _ h => h⟩) rfl⟩

theorem weaken (h : Blames L step free least tokens result) :
    Blames L step free 0 tokens result := by
  cases result with
  | ok read => trivial
  | error stuck =>
    obtain ⟨used, split, blame⟩ := h
    exact ⟨used, split, blame.imp id id (fun _ => ⟨Nat.zero_le _, fun _ _ h => h⟩) rfl⟩

/-- Only what the step does before the first token matters, if that one has been used. -/
theorem congr (same : ∀ other : List Token, other.head? = tokens.head? → step' other = step other)
    (h : Blames L step free 1 tokens result) : Blames L step' free 1 tokens result := by
  cases result with
  | ok read => trivial
  | error stuck =>
    obtain ⟨used, rfl, blame⟩ := h
    refine ⟨used, rfl, blame.imp id id (fun long => ⟨long, fun other e failed => ?_⟩) rfl⟩
    obtain ⟨token, used, rfl⟩ := List.exists_cons_of_length_pos long
    exact (same (token :: used ++ other) rfl).trans failed

/-- Nothing is used, and the next token is out of place. -/
theorem here {expected : Expectation} {left : Nat} (limit : expected ≠ .fewerLevels)
    (brace : expected ≠ .exactly openBrace) (avoids : Avoids L []) :
    Blames L step free least tokens (.error ⟨expected, tokens, left⟩) :=
  ⟨[], rfl, .other limit brace avoids⟩

/-- Nothing is used, and the next token opens a level too much. -/
theorem limit {token : Token} {left : Nat} (opens : token.opensLevel = true)
    (viable : Viable L [token]) :
    Blames L step free least (token :: tokens) (.error ⟨.fewerLevels, token :: tokens, left⟩) :=
  ⟨[], rfl, .opening rfl rfl opens viable⟩

/-- Nothing is used, and the next token is not the brace that is asked for. -/
theorem absent {expected : Expectation} {left : Nat}
    (absent : begins .delimiter openBrace tokens = false)
    (asks : ∀ other : List Token, begins .delimiter openBrace other = false →
      ∃ left, step other = .error ⟨.exactly openBrace, other, left⟩)
    (levels : expected = .fewerLevels ∧ 0 = free ∨ expected = .exactly openBrace ∧ 0 < free) :
    Blames L step free 0 tokens (.error ⟨expected, tokens, left⟩) := by
  rw [← Nat.zero_add free] at levels
  exact ⟨[], rfl, .missing (Nat.zero_le 0) absent asks levels⟩

/-- A brace that stands there has been used before another one is missing. -/
theorem present (h : Blames L step free 0 tokens result)
    (brace : begins .delimiter openBrace tokens = true) : Blames L step free 1 tokens result := by
  cases result with
  | ok read => trivial
  | error stuck =>
    obtain ⟨used, rfl, blame⟩ := h
    refine ⟨used, rfl, ?_⟩
    cases used with
    | nil =>
      cases blame with
      | other limit brace avoids => exact .other limit brace avoids
      | opening limit next opens viable => exact .opening limit next opens viable
      | missing _ absent => cases brace.symm.trans absent
    | cons token used =>
      exact blame.imp id id (fun _ => ⟨Nat.succ_pos _, fun _ _ failed => failed⟩) rfl

/-- The first token is used. -/
theorem cons {token : Token} {inner : Nat} (shifts : Shifts token free inner)
    (h : Blames (L.leftQuotient [token]) (fun rest => step (token :: rest)) inner 0 tokens result) :
    Blames L step free 1 (token :: tokens) result := by
  cases result with
  | ok read => trivial
  | error stuck =>
    obtain ⟨used, split, blame⟩ := h
    have opened := bracesOpened_append [token] used
    have closed := bracesClosed_append [token] used
    rw [List.singleton_append] at opened closed
    unfold Shifts at shifts
    exact ⟨token :: used, by rw [split, List.cons_append], blame.imp id id
      (fun _ => ⟨Nat.succ_pos _, fun _ _ failed => failed⟩) (by omega)⟩

/-- The first token is used and decides what both steps do next. -/
theorem after {token : Token} {next next' : Step α} {inner : Nat}
    (shifts : Shifts token free inner)
    (h : ∀ rest, step (token :: rest) = next rest) (h' : ∀ rest, step' (token :: rest) = next' rest)
    (behind : Blames (L.leftQuotient [token]) next' inner 0 tokens (next tokens)) :
    Blames L step' free 1 (token :: tokens) (step (token :: tokens)) := by
  obtain rfl : (fun rest => step' (token :: rest)) = next' := funext h'
  rw [h]
  exact .cons shifts behind

theorem bind {k k' : α × List Token → Except Stuck (β × List Token)} {look : Nat}
    (first : Blames L step free least tokens result) (resumes : Resumes L step look tokens result)
    (balanced : Balanced L) (viable : Viable M []) (le : least ≤ look)
    (next : ∀ x rest, result = .ok (x, rest) →
      Blames M (fun rest => k' (x, rest)) free look rest (k (x, rest))) :
    Blames (L * M) (fun tokens => step tokens >>= k') free least tokens (result >>= k) := by
  cases result with
  | error stuck =>
    obtain ⟨used, split, blame⟩ := first
    refine ⟨used, split, blame.imp (·.mul viable) (·.mul viable) (fun long => ⟨long, ?_⟩) rfl⟩
    intro other e failed
    rw [failed]
    rfl
  | ok read =>
    obtain ⟨x, rest⟩ := read
    obtain ⟨used, rfl, word, again⟩ := resumes
    have second := next x rest rfl
    rw [ok_bind]
    cases behind : k (x, rest) with
    | ok read' => trivial
    | error stuck =>
      rw [behind] at second
      obtain ⟨used', rfl, blame⟩ := second
      refine ⟨used ++ used', by rw [List.append_assoc], blame.imp (avoids_append word) ?_ ?_ ?_⟩
      · intro token begun
        rw [List.append_assoc]
        exact viable_append word begun
      · refine fun long => ⟨by rw [List.length_append]; omega, fun other e failed => ?_⟩
        -- If the first step looks at the next token, that one has been used by the second.
        have same : look = 0 ∨ (used' ++ other).head? = (used' ++ stuck.rest).head? := by
          cases used' with
          | nil => exact .inl (Nat.le_zero.mp long)
          | cons token used' => exact .inr rfl
        rw [List.append_assoc, again _ same, ok_bind]
        exact failed
      · rw [bracesOpened_append, bracesClosed_append, balanced used word]
        omega

/-- A last step, whose value is put to use. -/
theorem map {k k' : α × List Token → Except Stuck (β × List Token)}
    (first : Blames L step free least tokens result)
    (h : ∀ x rest, ∃ read, k (x, rest) = .ok read) :
    Blames L (fun tokens => step tokens >>= k') free least tokens (result >>= k) := by
  cases result with
  | ok read =>
    obtain ⟨x, rest⟩ := read
    obtain ⟨read, done⟩ := h x rest
    rw [ok_bind, done]
    trivial
  | error stuck =>
    obtain ⟨used, split, blame⟩ := first
    refine ⟨used, split, blame.imp id id (fun long => ⟨long, fun other e failed => ?_⟩) rfl⟩
    rw [failed]
    rfl

end Blames

/-! ## Single tokens -/

theorem avoids_single {kind : TokenKind} {text : String} (brace : text ≠ openBrace) :
    Avoids (single kind text) [] := by
  refine ⟨⟨kind, text, .start⟩, [], ?_, _, Token.is_iff.mpr ⟨rfl, rfl⟩, rfl⟩
  rw [Bool.eq_false_iff]
  intro is
  exact brace (Token.is_iff.mp is).2

variable {free m m' : Nat} {kind : TokenKind} {text : String}

/-- A token of this kind and text, which is no brace, is used, or the step is stuck there. -/
theorem Blames.expect {k k' : Step α}
    (plain : bracesOpened [⟨kind, text, .start⟩] = bracesClosed [⟨kind, text, .start⟩])
    (brace : text ≠ openBrace) (viable : Viable M [])
    (next : ∀ rest, Blames M k' free 0 rest (k rest)) :
    Blames (single kind text * M) (fun tokens => Syntax.expect m' kind text tokens >>= k') free 1
      tokens (Syntax.expect m kind text tokens >>= k) := by
  cases is : begins kind text tokens with
  | false =>
    have missing : Syntax.expect m kind text tokens = .error ⟨.exactly text, tokens, m⟩ := by
      rw [Syntax.expect, is]
      rfl
    rw [missing]
    exact .here (by simp) (by simpa using brace) ((avoids_single brace).mul viable)
  | true =>
    cases tokens with
    | nil => cases is
    | cons token rest =>
      have taken (free : Nat) (k : Step α) (rest : List Token) :
          Syntax.expect free kind text (token :: rest) >>= k = k rest := by
        rw [expect_cons is, ok_bind]
      rw [taken]
      refine .cons (shifts_of_is is plain) ?_
      simp only [taken]
      refine (next rest).mono ?_
      intro used word
      exact Language.append_mem_mul ⟨token, is, rfl⟩ word

/-- A last token of this kind and text. -/
theorem Blames.last (brace : text ≠ openBrace) (x : α) :
    Blames (single kind text)
      (fun tokens => Syntax.expect m' kind text tokens >>= fun rest => .ok (x, rest)) free 1
      tokens (Syntax.expect m kind text tokens >>= fun rest => .ok (x, rest)) := by
  unfold Syntax.expect
  split
  · trivial
  · exact .here (by simp) (by simpa using brace) (avoids_single brace)

/-! ## Repetition -/

theorem blames_readUntil {stop : List Token → Bool} {step step' : Step α} {free : Nat}
    (looks : LooksAhead stop) (consumes : Consumes step) (consumes' : Consumes step')
    (prompt : Prompt L step step') (balanced : Balanced L)
    (h : ∀ tokens, Blames L step' free 1 tokens (step tokens)) (tokens : List Token) :
    Blames L∗ (readUntil stop step') free 1 tokens (readUntil stop step tokens) := by
  induction hn : tokens.length using Nat.strongRecOn generalizing tokens with
  | ind n ih =>
    subst hn
    rw [readUntil_eq consumes]
    split
    · trivial
    · rename_i goes
      refine .congr (readUntil_goes looks consumes' goes) (.mono (.bind (h tokens)
        (prompt tokens).resumes balanced viable_kstar (Nat.le_refl 1) fun x rest read => ?_)
        mul_kstar_le_kstar)
      have others := ih rest.length (consumes tokens x rest read) rest rfl
      exact .map others fun _ _ => ⟨_, rfl⟩

end Syntax

end Quadrupler
