import Quadrupler.Syntax.Step
set_option autoImplicit false

/-!
# Steps that follow a grammar

A step is sound for a grammar when what it takes from the front of the tokens derives what
it returns, within the free levels.  It is complete when it returns whatever can be derived,
leaving the tokens behind it; how these may begin is part of what completeness says, because
a step that goes on as long as it can would otherwise take too much.
-/

namespace Quadrupler

theorem Token.is_iff {token : Token} {kind : TokenKind} {text : String} :
    token.is kind text = true ↔ token.kind = kind ∧ token.text = text := by
  simp [Token.is]

namespace Syntax

/-- Which tokens derive which value, and how many levels of nesting they need. -/
abbrev Derivation (α : Type) : Type := List Token → α → Nat → Prop

variable {α β : Type} {free : Nat}

def Sound (free : Nat) (G : Derivation α) (step : Step α) : Prop :=
  ∀ {tokens : List Token} {x : α} {rest : List Token}, step tokens = .ok (x, rest) →
    ∃ used levels, tokens = used ++ rest ∧ G used x levels ∧ levels ≤ free

def Complete (free : Nat) (G : Derivation α) (follow : List Token → Prop) (step : Step α) : Prop :=
  ∀ {used : List Token} {x : α} {levels : Nat} {rest : List Token}, G used x levels →
    levels ≤ free → follow rest → step (used ++ rest) = .ok (x, rest)

/-- Nothing is asked of the tokens that follow. -/
def anything (_ : List Token) : Prop := True

/-! ## Single tokens and sequences of steps -/

theorem bind_eq_ok_iff {x : Except Stuck α} {f : α → Except Stuck β} {b : β} :
    x >>= f = .ok b ↔ ∃ a, x = .ok a ∧ f a = .ok b := by
  cases x with
  | error e => simp [bind, Except.bind]
  | ok a => simp [bind, Except.bind]

theorem ok_bind {a : α} {f : α → Except Stuck β} : (Except.ok a : Except Stuck α) >>= f = f a := rfl

@[simp] theorem begins_cons {kind : TokenKind} {text : String} {token : Token} {rest : List Token} :
    begins kind text (token :: rest) = token.is kind text := rfl

theorem expect_eq_ok_iff {kind : TokenKind} {text : String} {tokens rest : List Token} :
    expect free kind text tokens = .ok rest ↔
      ∃ token, tokens = token :: rest ∧ token.is kind text = true := by
  cases tokens with
  | nil => simp [expect, begins]
  | cons token others =>
    rw [expect, begins_cons]
    split
    · rename_i is
      constructor
      · rintro ⟨⟩
        exact ⟨token, rfl, is⟩
      · rintro ⟨_, ⟨⟩, _⟩
        rfl
    · rename_i isNot
      constructor
      · rintro ⟨⟩
      · rintro ⟨_, ⟨⟩, is⟩
        exact absurd is isNot

theorem expect_cons {kind : TokenKind} {text : String} {token : Token} {rest : List Token}
    (h : token.is kind text = true) : expect free kind text (token :: rest) = .ok rest :=
  expect_eq_ok_iff.mpr ⟨token, rfl, h⟩

/-! ## Repetition -/

/-- Derivations in a row, which need as many levels as any one of them. -/
inductive Row (G : Derivation α) : Derivation (List α) where
  | nil : Row G [] [] 0
  | cons {tokens others : List Token} {x : α} {xs : List α} {m n : Nat} :
      G tokens x m → Row G others xs n → Row G (tokens ++ others) (x :: xs) (max m n)

variable {G : Derivation α} {step : Step α} {stop : List Token → Bool}

theorem readMany_sound (sound : Sound free G step)
    (takes : ∀ {used x levels}, G used x levels → used ≠ []) {bound : Nat}
    {tokens rest : List Token} {xs : List α} (enough : tokens.length ≤ bound)
    (h : readMany (fun tokens => tokens.isEmpty || stop tokens) step bound tokens =
      .ok (xs, rest)) :
    ∃ used levels, tokens = used ++ rest ∧ Row G used xs levels ∧ levels ≤ free ∧
      (rest.isEmpty || stop rest) = true := by
  induction bound generalizing tokens xs with
  | zero =>
    obtain rfl : tokens = [] := List.length_eq_zero_iff.mp (Nat.le_zero.mp enough)
    obtain ⟨rfl, rfl⟩ : xs = [] ∧ rest = [] := by simpa [readMany, eq_comm] using h
    exact ⟨[], 0, rfl, .nil, Nat.zero_le _, rfl⟩
  | succ bound ih =>
    rw [readMany] at h
    split at h
    · rename_i stops
      obtain ⟨rfl, rfl⟩ : xs = [] ∧ rest = tokens := by simpa [eq_comm] using h
      exact ⟨[], 0, rfl, .nil, Nat.zero_le _, stops⟩
    · obtain ⟨⟨x, middle⟩, first, h⟩ := bind_eq_ok_iff.mp h
      obtain ⟨⟨others, final⟩, behind, h⟩ := bind_eq_ok_iff.mp h
      obtain ⟨rfl, rfl⟩ : xs = x :: others ∧ rest = final := by simpa [eq_comm] using h
      obtain ⟨used, m, rfl, hx, hm⟩ := sound first
      have shorter : middle.length ≤ bound := by
        have := List.length_pos_iff.mpr (takes hx)
        rw [List.length_append] at enough
        omega
      obtain ⟨used', n, rfl, hxs, hn, stops⟩ := ih shorter behind
      exact ⟨used ++ used', max m n, by rw [List.append_assoc], .cons hx hxs, by omega, stops⟩

theorem readUntil_sound (sound : Sound free G step)
    (takes : ∀ {used x levels}, G used x levels → used ≠ []) {tokens rest : List Token}
    {xs : List α} (h : readUntil stop step tokens = .ok (xs, rest)) :
    ∃ used levels, tokens = used ++ rest ∧ Row G used xs levels ∧ levels ≤ free ∧
      (rest.isEmpty || stop rest) = true :=
  readMany_sound sound takes (Nat.le_refl _) h

/-- All values of a row are read if none of them begins as what stops the reading, and if
each may stand before the next one. -/
theorem readUntil_complete {follow : List Token → Prop} (complete : Complete free G follow step)
    (begin : ∀ {used x levels}, G used x levels →
      ∃ token others, used = token :: others ∧
        ∀ rest, stop (token :: rest) = false ∧ follow (token :: rest))
    {used rest : List Token} {xs : List α} {levels : Nat} (h : Row G used xs levels)
    (enough : levels ≤ free) (stops : (rest.isEmpty || stop rest) = true) (last : follow rest) :
    readUntil stop step (used ++ rest) = .ok (xs, rest) := by
  suffices ∀ bound, used.length ≤ bound →
      readMany (fun tokens => tokens.isEmpty || stop tokens) step bound (used ++ rest) =
        .ok (xs, rest) from
    this _ (by simp)
  induction h with
  | nil =>
    intro bound _
    cases bound with
    | zero => rfl
    | succ bound => simp [readMany, stops]
  | @cons tokens others x xs m n hx hxs ih =>
    intro bound hbound
    obtain ⟨token, behind, rfl, hbegin⟩ := begin hx
    cases bound with
    | zero => simp at hbound
    | succ bound =>
      -- What follows a value is the next one, or what follows the row.
      have next : follow (others ++ rest) := by
        cases hxs with
        | nil => exact last
        | cons hy _ =>
          obtain ⟨_, _, rfl, hbegin'⟩ := begin hy
          exact (hbegin' _).2
      have rest_ := ih (by omega) bound (by simp at hbound; omega)
      have first : step ((token :: behind) ++ (others ++ rest)) = .ok (x, others ++ rest) :=
        complete hx (by omega) next
      rw [readMany, List.append_assoc, List.cons_append, if_neg (by simp [(hbegin _).1]),
        ← List.cons_append, first, ok_bind]
      simp only [rest_, ok_bind]

end Syntax

end Quadrupler
