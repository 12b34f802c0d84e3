import Mathlib.Computability.MyhillNerode
import Mathlib.Order.CompletePartialOrder
import Quadrupler.Proofs.Syntax.Step
set_option autoImplicit false

/-!
# Steps that get stuck as early as possible

What a step does is settled by the tokens it uses and the one behind them.  Where it
succeeds it has used a word of its language, and where it gets stuck what it has used begins
such a word.  So a word of the language cannot go on with the token at which the step is
stuck, unless only the levels of nesting were too few.

A step is compared with one that has more free levels: that one does the same, except where
the first runs out of levels.
-/

namespace Quadrupler.Syntax

open scoped Computability

variable {α β : Type} {L M : Language Token} {tokens used : List Token}

/-! ## Languages of tokens -/

/-- The tokens from which a grammar derives something. -/
def derived (G : Derivation α) : Language Token := {used | ∃ x levels, G used x levels}

theorem mem_derived {G : Derivation α} {x : α} {levels : Nat} (h : G used x levels)
    (same : used = tokens) : tokens ∈ derived G := by
  subst same
  exact ⟨x, levels, h⟩

/-- What is derived from a token and the tokens behind it. -/
theorem mem_leftQuotient {G : Derivation α} {token : Token} {x : α} {levels : Nat}
    (h : G used x levels) (same : used = token :: tokens) :
    tokens ∈ (derived G).leftQuotient [token] := by
  subst same
  exact ⟨x, levels, h⟩

/-- One token of this kind and text. -/
def single (kind : TokenKind) (text : String) : Language Token :=
  {used | ∃ token : Token, token.is kind text = true ∧ used = [token]}

/-- Some word of the language begins with the tokens. -/
def Viable (L : Language Token) (used : List Token) : Prop := ∃ more, used ++ more ∈ L

theorem viable_of_mem (h : used ∈ L) : Viable L used := ⟨[], by rwa [List.append_nil]⟩

theorem Viable.mono (h : Viable L used) (le : L ≤ M) : Viable M used := by
  obtain ⟨more, word⟩ := h
  exact ⟨more, le word⟩

theorem viable_one : Viable 1 [] := viable_of_mem rfl

theorem viable_kstar : Viable L∗ [] := viable_of_mem (Language.nil_mem_kstar L)

theorem viable_single (kind : TokenKind) (text : String) : Viable (single kind text) [] :=
  ⟨[⟨kind, text, .start⟩], _, Token.is_iff.mpr ⟨rfl, rfl⟩, rfl⟩

/-- What begins a word of the first language begins a word of both in a row. -/
theorem Viable.mul (h : Viable L used) (others : Viable M []) : Viable (L * M) used := by
  obtain ⟨more, word⟩ := h
  obtain ⟨word', others⟩ := others
  refine ⟨more ++ word', ?_⟩
  rw [← List.append_assoc]
  exact Language.append_mem_mul word others

theorem viable_append {used' : List Token} (h : used ∈ L) (h' : Viable M used') :
    Viable (L * M) (used ++ used') := by
  obtain ⟨more, word⟩ := h'
  refine ⟨more, ?_⟩
  rw [List.append_assoc]
  exact Language.append_mem_mul h word

/-! ## Prompt results -/

/-- The result uses a word of the language or, if it is stuck, the beginning of one; and the
step gives it wherever the used tokens stand before a token like the next one. -/
def PromptAt (L : Language Token) (step : Step α) (tokens : List Token) :
    Except Stuck (α × List Token) → Prop
  | .ok (x, rest) =>
    ∃ used, tokens = used ++ rest ∧ used ∈ L ∧
      ∀ other : List Token, other.head? = rest.head? → step (used ++ other) = .ok (x, other)
  | .error stuck =>
    ∃ used, tokens = used ++ stuck.rest ∧ Viable L used ∧
      (stuck.expected ≠ .fewerLevels →
        ∀ other : List Token, other.head? = stuck.rest.head? →
          ∃ free, step (used ++ other) = .error ⟨stuck.expected, other, free⟩)

/-- All results of the first step are prompt, with the second one as the step that has more
levels. -/
def Prompt (L : Language Token) (step step' : Step α) : Prop :=
  ∀ tokens, PromptAt L step' tokens (step tokens)

theorem head?_append_congr {other rest : List Token} (h : other.head? = rest.head?)
    (used : List Token) : (used ++ other).head? = (used ++ rest).head? := by
  cases used with
  | nil => exact h
  | cons token used => rfl

theorem forall_head?_nil {P : List Token → Prop} (h : P []) (other : List Token)
    (same : other.head? = ([] : List Token).head?) : P other := by
  obtain rfl : other = [] := List.head?_eq_none_iff.mp same
  exact h

theorem forall_head?_cons {P : List Token → Prop} {token : Token} (h : ∀ rest, P (token :: rest))
    (other : List Token) (same : other.head? = (token :: tokens).head?) : P other := by
  obtain ⟨rest, rfl⟩ := List.head?_eq_some_iff.mp same
  exact h rest

namespace PromptAt

variable {step step' : Step α} {result : Except Stuck (α × List Token)}

theorem mono (h : PromptAt L step tokens result) (le : L ≤ M) : PromptAt M step tokens result := by
  cases result with
  | error stuck =>
    obtain ⟨used, split, viable, again⟩ := h
    exact ⟨used, split, viable.mono le, again⟩
  | ok read =>
    obtain ⟨used, split, word, again⟩ := h
    exact ⟨used, split, le word, again⟩

/-- Only what the step does before the first token matters. -/
theorem congr
    (same : ∀ other : List Token, other.head? = tokens.head? → step' other = step other)
    (h : PromptAt L step tokens result) : PromptAt L step' tokens result := by
  cases result with
  | error stuck =>
    obtain ⟨used, rfl, viable, again⟩ := h
    refine ⟨used, rfl, viable, fun limit other next => ?_⟩
    rw [same _ (head?_append_congr next used)]
    exact again limit other next
  | ok read =>
    obtain ⟨used, rfl, word, again⟩ := h
    refine ⟨used, rfl, word, fun other next => ?_⟩
    rw [same _ (head?_append_congr next used)]
    exact again other next

/-- Nothing is used. -/
theorem done {x : α} (nil : [] ∈ L)
    (same : ∀ other : List Token, other.head? = tokens.head? → step other = .ok (x, other)) :
    PromptAt L step tokens (.ok (x, tokens)) :=
  ⟨[], rfl, nil, same⟩

/-- The step is stuck at the first token. -/
theorem here {expected : Expectation} {free : Nat} (viable : Viable L [])
    (same : ∀ other : List Token, other.head? = tokens.head? →
      ∃ free, step other = .error ⟨expected, other, free⟩) :
    PromptAt L step tokens (.error ⟨expected, tokens, free⟩) :=
  ⟨[], rfl, viable, fun _ => same⟩

theorem limit {free : Nat} (viable : Viable L []) :
    PromptAt L step tokens (.error ⟨.fewerLevels, tokens, free⟩) :=
  ⟨[], rfl, viable, fun differs => absurd rfl differs⟩

/-- The first token is used. -/
theorem cons {token : Token}
    (h : PromptAt (L.leftQuotient [token]) (fun rest => step (token :: rest)) tokens result) :
    PromptAt L step (token :: tokens) result := by
  cases result with
  | error stuck =>
    obtain ⟨used, split, ⟨more, word⟩, again⟩ := h
    exact ⟨token :: used, by rw [split, List.cons_append], ⟨more, word⟩, again⟩
  | ok read =>
    obtain ⟨used, split, word, again⟩ := h
    exact ⟨token :: used, by rw [split, List.cons_append], word, again⟩

/-- The first token is used and decides what both steps do next. -/
theorem after {token : Token} {next next' : Step α}
    (h : ∀ rest, step (token :: rest) = next rest) (h' : ∀ rest, step' (token :: rest) = next' rest)
    (behind : PromptAt (L.leftQuotient [token]) next' tokens (next tokens)) :
    PromptAt L step' (token :: tokens) (step (token :: tokens)) := by
  rw [h]
  exact .cons (.congr (fun other _ => h' other) behind)

theorem bind {k k' : α × List Token → Except Stuck (β × List Token)}
    (first : PromptAt L step tokens result) (viable : Viable M [])
    (next : ∀ x rest, result = .ok (x, rest) →
      PromptAt M (fun rest => k' (x, rest)) rest (k (x, rest))) :
    PromptAt (L * M) (fun tokens => step tokens >>= k') tokens (result >>= k) := by
  cases result with
  | error stuck =>
    obtain ⟨used, split, begun, again⟩ := first
    refine ⟨used, split, begun.mul viable, fun limit other same => ?_⟩
    obtain ⟨free, stuck'⟩ := again limit other same
    refine ⟨free, ?_⟩
    change step (used ++ other) >>= k' = _
    rw [stuck']
    rfl
  | ok read =>
    obtain ⟨x, rest⟩ := read
    obtain ⟨used, rfl, word, again⟩ := first
    have second := next x rest rfl
    rw [ok_bind]
    cases behind : k (x, rest) with
    | error stuck =>
      rw [behind] at second
      obtain ⟨used', rfl, begun, again'⟩ := second
      refine ⟨used ++ used', by rw [List.append_assoc], viable_append word begun,
        fun limit other same => ?_⟩
      obtain ⟨free, stuck'⟩ := again' limit other same
      refine ⟨free, ?_⟩
      change step (used ++ used' ++ other) >>= k' = _
      rw [List.append_assoc, again _ (head?_append_congr same used'), ok_bind]
      exact stuck'
    | ok read' =>
      rw [behind] at second
      obtain ⟨used', rfl, word', again'⟩ := second
      refine ⟨used ++ used', by rw [List.append_assoc], Language.append_mem_mul word word',
        fun other same => ?_⟩
      change step (used ++ used' ++ other) >>= k' = _
      rw [List.append_assoc, again _ (head?_append_congr same used'), ok_bind]
      exact again' other same

end PromptAt

/-! ## Prompt steps -/

theorem Prompt.mono {step step' : Step α} (h : Prompt L step step') (le : L ≤ M) :
    Prompt M step step' :=
  fun tokens => (h tokens).mono le

theorem prompt_ok (x : α) :
    Prompt 1 (fun tokens => .ok (x, tokens)) (fun tokens => .ok (x, tokens)) :=
  fun _ => .done rfl fun _ _ => rfl

theorem kstar_derived (G : Derivation α) : (derived G)∗ ≤ derived (Row G) := by
  intro used h
  obtain ⟨words, rfl, each⟩ := Language.mem_kstar.mp h
  clear h
  induction words with
  | nil => exact ⟨[], 0, .nil⟩
  | cons word words ih =>
    obtain ⟨x, m, hx⟩ := each word List.mem_cons_self
    obtain ⟨xs, n, hxs⟩ := ih fun other member => each other (List.mem_cons_of_mem _ member)
    exact mem_derived (.cons hx hxs) rfl

/-- Whether the tokens are such depends on the first of them alone. -/
def LooksAhead (test : List Token → Bool) : Prop :=
  ∀ tokens other : List Token, other.head? = tokens.head? → test other = test tokens

theorem looksAhead_isEmpty : LooksAhead List.isEmpty := by
  intro tokens
  cases tokens with
  | nil => exact forall_head?_nil rfl
  | cons token tokens => exact forall_head?_cons fun rest => rfl

theorem looksAhead_begins (kind : TokenKind) (text : String) : LooksAhead (begins kind text) := by
  intro tokens
  cases tokens with
  | nil => exact forall_head?_nil rfl
  | cons token tokens => exact forall_head?_cons fun rest => rfl

theorem LooksAhead.or {test test' : List Token → Bool} (h : LooksAhead test)
    (h' : LooksAhead test') : LooksAhead fun tokens => test tokens || test' tokens := by
  intro tokens other same
  simp only [h tokens other same, h' tokens other same]

/-- A token of this kind and text is used, or the step is stuck there. -/
theorem PromptAt.expect {k k' : Step α} {free free' : Nat} {kind : TokenKind} {text : String}
    (viable : Viable M []) (next : ∀ rest, PromptAt M k' rest (k rest)) :
    PromptAt (single kind text * M) (fun tokens => Syntax.expect free' kind text tokens >>= k')
      tokens (Syntax.expect free kind text tokens >>= k) := by
  cases is : begins kind text tokens with
  | false =>
    have missing (free : Nat) {other : List Token} (same : other.head? = tokens.head?) :
        Syntax.expect free kind text other = .error ⟨.exactly text, other, free⟩ := by
      rw [Syntax.expect, looksAhead_begins kind text _ _ same, is]
      rfl
    rw [missing free rfl]
    refine .here ((viable_single kind text).mul viable) fun other same => ⟨free', ?_⟩
    rw [missing free' same]
    rfl
  | true =>
    cases tokens with
    | nil => cases is
    | cons token rest =>
      have taken (free : Nat) (k : Step α) (rest : List Token) :
          Syntax.expect free kind text (token :: rest) >>= k = k rest := by
        rw [expect_cons is, ok_bind]
      rw [taken]
      refine .cons (.congr (fun other _ => taken free' k' other) ((next rest).mono ?_))
      intro used word
      exact Language.append_mem_mul ⟨token, is, rfl⟩ word

/-- A last token of this kind and text. -/
theorem PromptAt.last {free free' : Nat} {kind : TokenKind} {text : String} (x : α) :
    PromptAt (single kind text)
      (fun tokens => Syntax.expect free' kind text tokens >>= fun rest => .ok (x, rest))
      tokens (Syntax.expect free kind text tokens >>= fun rest => .ok (x, rest)) := by
  rw [← mul_one (single kind text)]
  exact .expect viable_one (prompt_ok x)

/-- A last step, whose value `f` puts to use. -/
theorem PromptAt.map {step : Step α} {result : Except Stuck (α × List Token)} {f : α → β}
    {k k' : α × List Token → Except Stuck (β × List Token)} (first : PromptAt L step tokens result)
    (h : ∀ x rest, k (x, rest) = .ok (f x, rest)) (h' : ∀ x rest, k' (x, rest) = .ok (f x, rest)) :
    PromptAt L (fun tokens => step tokens >>= k') tokens (result >>= k) := by
  rw [← mul_one L]
  refine .bind first viable_one fun x rest _ => ?_
  simp only [h, h']
  exact prompt_ok (f x) rest

/-! ## Repetition -/

/-- A step that succeeds uses a token. -/
def Consumes (step : Step α) : Prop :=
  ∀ tokens x rest, step tokens = .ok (x, rest) → rest.length < tokens.length

theorem consumes_of_sound {free : Nat} {G : Derivation α} {step : Step α}
    (sound : Sound free G step) (takes : ∀ {used x levels}, G used x levels → used ≠ []) :
    Consumes step := by
  intro tokens x rest h
  obtain ⟨used, levels, rfl, word, -⟩ := sound h
  have := List.length_pos_iff.mpr (takes word)
  rw [List.length_append]
  omega

/-- Any bound will do that is not below the number of tokens. -/
theorem readMany_congr {stop : List Token → Bool} {step : Step α} (consumes : Consumes step)
    {bound bound' : Nat} (enough : tokens.length ≤ bound) (enough' : tokens.length ≤ bound') :
    readMany (fun tokens => tokens.isEmpty || stop tokens) step bound tokens =
      readMany (fun tokens => tokens.isEmpty || stop tokens) step bound' tokens := by
  induction bound generalizing bound' tokens with
  | zero =>
    obtain rfl : tokens = [] := List.length_eq_zero_iff.mp (Nat.le_zero.mp enough)
    cases bound' with
    | zero => rfl
    | succ bound' => rfl
  | succ bound ih =>
    cases bound' with
    | zero =>
      obtain rfl : tokens = [] := List.length_eq_zero_iff.mp (Nat.le_zero.mp enough')
      rfl
    | succ bound' =>
      rw [readMany, readMany]
      split
      · rfl
      · cases read : step tokens with
        | error stuck => rfl
        | ok result =>
          obtain ⟨x, rest⟩ := result
          have shorter := consumes tokens x rest read
          simp only [ok_bind, ih (show rest.length ≤ bound by omega)
            (show rest.length ≤ bound' by omega)]

/-- The tokens end, or reading stops, or a value is read and then the others. -/
theorem readUntil_eq {stop : List Token → Bool} {step : Step α} (consumes : Consumes step)
    (tokens : List Token) :
    readUntil stop step tokens =
      if tokens.isEmpty || stop tokens then .ok ([], tokens)
      else (do
        let (first, rest) ← step tokens
        let (others, rest) ← readUntil stop step rest
        .ok (first :: others, rest)) := by
  cases tokens with
  | nil => rfl
  | cons token rest =>
    rw [readUntil, List.length_cons, readMany]
    split
    · rfl
    · cases read : step (token :: rest) with
      | error stuck => rfl
      | ok result =>
        obtain ⟨x, behind⟩ := result
        have shorter := consumes _ x behind read
        rw [List.length_cons] at shorter
        simp only [ok_bind, readUntil,
          readMany_congr consumes (Nat.le_of_lt_succ shorter) (Nat.le_refl behind.length)]

theorem LooksAhead.ends {stop : List Token → Bool} (looks : LooksAhead stop) {other : List Token}
    (same : other.head? = tokens.head?) :
    (other.isEmpty || stop other) = (tokens.isEmpty || stop tokens) :=
  looksAhead_isEmpty.or looks tokens other same

/-- Where reading goes on is seen from the next token. -/
theorem readUntil_goes {stop : List Token → Bool} {step : Step α} (looks : LooksAhead stop)
    (consumes : Consumes step) (goes : ¬(tokens.isEmpty || stop tokens) = true)
    (other : List Token) (same : other.head? = tokens.head?) :
    readUntil stop step other = (do
      let (first, rest) ← step other
      let (others, rest) ← readUntil stop step rest
      .ok (first :: others, rest)) := by
  rw [readUntil_eq consumes, looks.ends same, if_neg goes]

theorem prompt_readUntil {stop : List Token → Bool} {step step' : Step α}
    (looks : LooksAhead stop) (consumes : Consumes step) (consumes' : Consumes step')
    (h : Prompt L step step') : Prompt L∗ (readUntil stop step) (readUntil stop step') := by
  intro tokens
  induction hn : tokens.length using Nat.strongRecOn generalizing tokens with
  | ind n ih =>
    subst hn
    rw [readUntil_eq consumes]
    split
    · rename_i stops
      refine .done (Language.nil_mem_kstar L) fun other same => ?_
      rw [readUntil_eq consumes', looks.ends same, if_pos stops]
    · rename_i goes
      refine .congr (readUntil_goes looks consumes' goes)
        (.mono (.bind (h tokens) viable_kstar fun x rest read => ?_) mul_kstar_le_kstar)
      have others := ih rest.length (consumes tokens x rest read) rest rfl
      exact .map others (fun _ _ => rfl) (fun _ _ => rfl)

end Quadrupler.Syntax
