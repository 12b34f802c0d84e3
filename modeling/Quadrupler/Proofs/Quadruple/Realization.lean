import Quadrupler.Proofs.Quadruple.Run
import Quadrupler.Proofs.Tree.Effect
set_option autoImplicit false

/-!
# Code that realizes an effect

The code between two indices realizes an effect when both directions hold: what the effect
allows, the machine does, and a run that halts has done what the effect allows and goes on
behind the code, unless it has returned.  The second half counts fuel, since a loop is left
after finitely many iterations only if the run halts.

Effects that are put together from others are realized by code that is put together in the
same way; there is one theorem for each of the ways, and none of them mentions a tree.
-/

namespace Quadrupler.Machine

open Effect

variable {V : Type} {arithmetic : Arithmetic V} {listing : Listing}

/-- From the state, the machine comes to an index, or to a return, with these values. -/
inductive Arrives (arithmetic : Arithmetic V) (listing : Listing) (stop : Nat) :
    State V → Valuation V → Completion V → Prop where
  | finished {n : Nat} {s s' : State V} :
      Steps arithmetic listing n s s' → s'.index = stop →
      Arrives arithmetic listing stop s s'.names .finished
  | returned {n : Nat} {s s' : State V} {v : V} :
      Steps arithmetic listing n s s' →
      step? arithmetic listing s' = some (.halted (.returned v)) →
      Arrives arithmetic listing stop s s'.names (.returned v)

theorem Arrives.after {n stop : Nat} {s s' : State V} {final : Valuation V}
    {completion : Completion V} (steps : Steps arithmetic listing n s s')
    (h : Arrives arithmetic listing stop s' final completion) :
    Arrives arithmetic listing stop s final completion := by
  cases h with
  | finished more there => exact .finished (steps.trans more) there
  | returned more halts => exact .returned (steps.trans more) halts

/-- Between the two indices, and from states of the given sort, the machine does what the
effect says. -/
structure Realizes (arithmetic : Arithmetic V) (listing : Listing) (given : State V → Prop)
    (start stop : Nat) (P : Effect V) : Prop where
  arrives : ∀ {s : State V} {final : Valuation V} {completion : Completion V},
    s.index = start → given s → P s.names final completion →
    Arrives arithmetic listing stop s final completion
  reflects : ∀ {fuel : Nat} {s : State V} {final : Valuation V} {completion : Completion V},
    s.index = start → given s → run? arithmetic listing fuel s = some (completion, final) →
    (∃ v, completion = .returned v ∧ P s.names final (.returned v)) ∨
      ∃ left s', left ≤ fuel ∧ s'.index = stop ∧ P s.names s'.names .finished ∧
        run? arithmetic listing left s' = some (completion, final)

/-- States of any sort. -/
def anyState (_ : State V) : Prop := True

/-- Between the two indices, nothing but the index changes. -/
def Passes (arithmetic : Arithmetic V) (listing : Listing) (start stop : Nat) : Prop :=
  ∀ s : State V, s.index = start → ∃ n, Steps arithmetic listing n s { s with index := stop }

/-- A condition is computed from one index on, and its outcome decides between two others.
It takes at least one step. -/
def Chooses (arithmetic : Arithmetic V) (listing : Listing) (given : State V → Prop)
    (start : Nat) (condition : Valuation V → Option Bool) (yes no : Nat) : Prop :=
  ∀ s : State V, s.index = start → given s →
    ∃ n s' b, Steps arithmetic listing (n + 1) s s' ∧ s'.names = s.names ∧ given s' ∧
      condition s.names = some b ∧ s'.index = if b then yes else no

section

variable {given : State V → Prop} {start middle stop : Nat} {P Q : Effect V}

/-! ## Straight code -/

theorem Passes.refl (start : Nat) : Passes arithmetic listing start start := by
  rintro s rfl
  exact ⟨0, .refl⟩

theorem Passes.trans (first : Passes arithmetic listing start middle)
    (second : Passes arithmetic listing middle stop) : Passes arithmetic listing start stop := by
  intro s hs
  obtain ⟨m, before⟩ := first s hs
  obtain ⟨n, behind⟩ := second { s with index := middle } rfl
  exact ⟨m + n, before.trans behind⟩

theorem passes_label {l : Label} (at_ : listing[start]? = some (.label l)) :
    Passes arithmetic listing start (start + 1) := by
  rintro s rfl
  exact ⟨1, step_label at_⟩

theorem passes_goto {l : Label} (at_ : listing[start]? = some (.goto l))
    (target : listing.position? l = some stop) : Passes arithmetic listing start stop := by
  rintro s rfl
  exact ⟨1, step_goto at_ target⟩

/-- Steps to where the effect, which leaves no choice, must end. -/
theorem Realizes.of_steps
    (h : ∀ s : State V, s.index = start → given s →
      ∃ n s', Steps arithmetic listing n s s' ∧ s'.index = stop ∧
        ∀ final completion, P s.names final completion ↔
          final = s'.names ∧ completion = .finished) :
    Realizes arithmetic listing given start stop P where
  arrives := by
    intro s final completion hs sort effect
    obtain ⟨n, s', steps, there, only⟩ := h s hs sort
    obtain ⟨rfl, rfl⟩ := (only final completion).mp effect
    exact .finished steps there
  reflects := by
    intro fuel s final completion hs sort halts
    obtain ⟨n, s', steps, there, only⟩ := h s hs sort
    obtain ⟨left, rfl, rest⟩ := steps.rest halts
    exact .inr ⟨left, s', by omega, there, (only s'.names .finished).mpr ⟨rfl, rfl⟩, rest⟩

/-- Steps to the return that the effect, which leaves no choice, must end with. -/
theorem Realizes.of_return
    (h : ∀ s : State V, s.index = start → given s →
      ∃ n s' v, Steps arithmetic listing n s s' ∧
        step? arithmetic listing s' = some (.halted (.returned v)) ∧
        ∀ final completion, P s.names final completion ↔
          final = s'.names ∧ completion = .returned v) :
    Realizes arithmetic listing given start stop P where
  arrives := by
    intro s final completion hs sort effect
    obtain ⟨n, s', v, steps, halt, only⟩ := h s hs sort
    obtain ⟨rfl, rfl⟩ := (only final completion).mp effect
    exact .returned steps halt
  reflects := by
    intro fuel s final completion hs sort halts
    obtain ⟨n, s', v, steps, halt, only⟩ := h s hs sort
    obtain ⟨left, rfl, rest⟩ := steps.rest halts
    cases left with
    | zero => simp [run?] at rest
    | succ left =>
      rw [run?, halt] at rest
      obtain ⟨rfl, rfl⟩ : completion = .returned v ∧ final = s'.names := by
        simpa [eq_comm] using rest
      exact .inl ⟨v, rfl, (only s'.names (.returned v)).mpr ⟨rfl, rfl⟩⟩

/-- Code that only moves on does nothing. -/
theorem Passes.realizes_skip (h : Passes arithmetic listing start stop) :
    Realizes arithmetic listing given start stop skip := by
  refine .of_steps fun s hs _ => ?_
  obtain ⟨n, steps⟩ := h s hs
  exact ⟨n, _, steps, rfl, fun final completion => Iff.rfl⟩

/-! ## One after the other -/

theorem Realizes.andThen (first : Realizes arithmetic listing given start middle P)
    (second : Realizes arithmetic listing anyState middle stop Q) :
    Realizes arithmetic listing given start stop (P.andThen Q) where
  arrives := by
    intro s final completion hs sort effect
    obtain ⟨between, effect₁, effect₂⟩ | ⟨v, rfl, effect₁⟩ := effect
    · cases first.arrives hs sort effect₁ with
      | finished steps there => exact (second.arrives there trivial effect₂).after steps
    · cases first.arrives hs sort effect₁ with
      | returned steps halts => exact .returned steps halts
  reflects := by
    intro fuel s final completion hs sort halts
    obtain ⟨v, rfl, effect₁⟩ | ⟨left, s', less, there, effect₁, rest⟩ :=
      first.reflects hs sort halts
    · exact .inl ⟨v, rfl, .inr ⟨v, rfl, effect₁⟩⟩
    obtain ⟨v, rfl, effect₂⟩ | ⟨left', s'', less', there', effect₂, rest'⟩ :=
      second.reflects there trivial rest
    · exact .inl ⟨v, rfl, .inl ⟨s'.names, effect₁, effect₂⟩⟩
    · exact .inr ⟨left', s'', by omega, there', .inl ⟨s'.names, effect₁, effect₂⟩, rest'⟩

/-- Moving on after the code does not matter. -/
theorem Realizes.followed (h : Realizes arithmetic listing given start middle P)
    (pass : Passes arithmetic listing middle stop) :
    Realizes arithmetic listing given start stop P := by
  rw [← andThen_skip P]
  exact h.andThen pass.realizes_skip

/-- Steps to a state from which another effect, which may depend on the state, is realized. -/
theorem Realizes.after_steps
    (h : ∀ s : State V, s.index = start → given s →
      ∃ n s' given' Q, Steps arithmetic listing n s s' ∧ given' s' ∧
        Realizes arithmetic listing given' s'.index stop Q ∧ P s.names = Q s'.names) :
    Realizes arithmetic listing given start stop P where
  arrives := by
    intro s final completion hs sort effect
    obtain ⟨n, s', given', Q, steps, sort', behind, same⟩ := h s hs sort
    rw [same] at effect
    exact (behind.arrives rfl sort' effect).after steps
  reflects := by
    intro fuel s final completion hs sort halts
    obtain ⟨n, s', given', Q, steps, sort', behind, same⟩ := h s hs sort
    obtain ⟨left, rfl, rest⟩ := steps.rest halts
    rw [same]
    obtain returned | ⟨left', s'', less, there, effect, rest'⟩ := behind.reflects rfl sort' rest
    · exact .inl returned
    · exact .inr ⟨left', s'', by omega, there, effect, rest'⟩

/-- Moving on before the code does not matter. -/
theorem Passes.followed (pass : Passes arithmetic listing start middle)
    (keeps : ∀ s, given s → given { s with index := middle })
    (h : Realizes arithmetic listing given middle stop P) :
    Realizes arithmetic listing given start stop P := by
  refine .after_steps fun s hs sort => ?_
  obtain ⟨n, steps⟩ := pass s hs
  exact ⟨n, _, given, P, steps, keeps s sort, h, rfl⟩

theorem Realizes.of_anyState (h : Realizes arithmetic listing anyState start stop P) :
    Realizes arithmetic listing given start stop P where
  arrives hs _ effect := h.arrives hs trivial effect
  reflects hs _ halts := h.reflects hs trivial halts

theorem Realizes.congr_stop {stop' : Nat} (h : Realizes arithmetic listing given start stop P)
    (same : stop' = stop) : Realizes arithmetic listing given start stop' P :=
  same ▸ h

/-! ## Choices -/

theorem Realizes.choose {condition : Valuation V → Option Bool} {yes no : Nat}
    (choice : Chooses arithmetic listing given start condition yes no)
    (left : Realizes arithmetic listing given yes stop P)
    (right : Realizes arithmetic listing given no stop Q) :
    Realizes arithmetic listing given start stop (choose condition P Q) where
  arrives := by
    rintro s final completion hs sort ⟨b, hb, effect⟩
    obtain ⟨n, s', b', steps, same, sort', hb', there⟩ := choice s hs sort
    obtain rfl : b' = b := by simpa [hb'] using hb
    rw [← same] at effect
    cases b' with
    | true => exact (left.arrives there sort' effect).after steps
    | false => exact (right.arrives there sort' effect).after steps
  reflects := by
    intro fuel s final completion hs sort halts
    obtain ⟨n, s', b, steps, same, sort', hb, there⟩ := choice s hs sort
    obtain ⟨after, rfl, rest⟩ := steps.rest halts
    rw [← same] at hb ⊢
    cases b with
    | true =>
      obtain ⟨v, rfl, effect⟩ | ⟨remaining, s'', less, there', effect, rest'⟩ :=
        left.reflects there sort' rest
      · exact .inl ⟨v, rfl, true, hb, effect⟩
      · exact .inr ⟨remaining, s'', by omega, there', ⟨true, hb, effect⟩, rest'⟩
    | false =>
      obtain ⟨v, rfl, effect⟩ | ⟨remaining, s'', less, there', effect, rest'⟩ :=
        right.reflects there sort' rest
      · exact .inl ⟨v, rfl, false, hb, effect⟩
      · exact .inr ⟨remaining, s'', by omega, there', ⟨false, hb, effect⟩, rest'⟩

/-! ## Loops -/

/-- A loop that tests first.  `E` stands for its effect, which is the least one that
satisfies the equation. -/
theorem Realizes.loop {E : Effect V} {condition : Valuation V → Option Bool} {yes no back : Nat}
    (unfold_ : E = Effect.choose condition (P.andThen E) skip)
    (least : ∀ {R : Effect V},
      (∀ {names final : Valuation V} {completion : Completion V},
        Effect.choose condition (P.andThen R) skip names final completion →
        R names final completion) →
      ∀ {names final : Valuation V} {completion : Completion V},
        E names final completion → R names final completion)
    (choice : Chooses arithmetic listing anyState start condition yes no)
    (body : Realizes arithmetic listing anyState yes back P)
    (again : Passes arithmetic listing back start) (leave : Passes arithmetic listing no stop) :
    Realizes arithmetic listing anyState start stop E where
  arrives := by
    -- What every run from the start of the loop does is closed under iterations.
    intro s final completion hs _ effect
    refine least (R := fun names final completion => ∀ s : State V, s.index = start →
      s.names = names → Arrives arithmetic listing stop s final completion) ?_ effect s hs rfl
    rintro names final completion ⟨b, hb, run⟩ s hs rfl
    obtain ⟨n, s', b', steps, same, _, hb', there⟩ := choice s hs trivial
    obtain rfl : b' = b := by simpa [hb'] using hb
    rw [← same] at run
    refine Arrives.after steps ?_
    cases b' with
    | false =>
      have exits : Realizes arithmetic listing anyState no stop skip := leave.realizes_skip
      exact exits.arrives there trivial run
    | true =>
      obtain ⟨between, effect₁, effect₂⟩ | ⟨v, rfl, effect₁⟩ := run
      · cases body.arrives there trivial effect₁ with
        | @finished _ _ s'' more there' =>
          obtain ⟨m, jump⟩ := again s'' there'
          exact ((effect₂ { s'' with index := start } rfl rfl).after jump).after more
      · cases body.arrives there trivial effect₁ with
        | returned more halt => exact .returned more halt
  reflects := by
    -- Each iteration takes a step, so the fuel decreases from one test to the next.
    intro fuel
    induction fuel using Nat.strongRecOn with
    | ind fuel ih =>
      intro s final completion hs _ halts
      obtain ⟨n, s', b, steps, same, _, hb, there⟩ := choice s hs trivial
      obtain ⟨after, rfl, rest⟩ := steps.rest halts
      rw [← same] at hb ⊢
      rw [unfold_]
      cases b with
      | false =>
        have exits : Realizes arithmetic listing anyState no stop skip := leave.realizes_skip
        obtain ⟨v, rfl, _, impossible⟩ | ⟨left, s'', less, there', effect, rest'⟩ :=
          exits.reflects there trivial rest
        · cases impossible
        · exact .inr ⟨left, s'', by omega, there', ⟨false, hb, effect⟩, rest'⟩
      | true =>
        obtain ⟨v, rfl, effect₁⟩ | ⟨left, s'', less, there', effect₁, rest'⟩ :=
          body.reflects there trivial rest
        · exact .inl ⟨v, rfl, true, hb, .inr ⟨v, rfl, effect₁⟩⟩
        obtain ⟨m, jump⟩ := again s'' there'
        obtain ⟨left', rfl, rest''⟩ := jump.rest rest'
        obtain ⟨v, rfl, effect₂⟩ | ⟨left'', t, less', there'', effect₂, rest⟩ :=
          ih left' (by omega) rfl trivial rest''
        · exact .inl ⟨v, rfl, true, hb, .inl ⟨s''.names, effect₁, effect₂⟩⟩
        · exact .inr ⟨left'', t, by omega, there'', ⟨true, hb, .inl ⟨s''.names, effect₁, effect₂⟩⟩,
            rest⟩

/-- A loop that tests last. -/
theorem Realizes.loopBack {E : Effect V} {condition : Valuation V → Option Bool}
    (unfold_ : E = P.andThen (Effect.choose condition E skip))
    (least : ∀ {R : Effect V},
      (∀ {names final : Valuation V} {completion : Completion V},
        P.andThen (Effect.choose condition R skip) names final completion →
        R names final completion) →
      ∀ {names final : Valuation V} {completion : Completion V},
        E names final completion → R names final completion)
    (body : Realizes arithmetic listing anyState start middle P)
    (choice : Chooses arithmetic listing anyState middle condition start stop) :
    Realizes arithmetic listing anyState start stop E where
  arrives := by
    intro s final completion hs _ effect
    refine least (R := fun names final completion => ∀ s : State V, s.index = start →
      s.names = names → Arrives arithmetic listing stop s final completion) ?_ effect s hs rfl
    rintro names final completion (⟨between, effect₁, b, hb, run⟩ | ⟨v, rfl, effect₁⟩) s hs rfl
    · cases body.arrives hs trivial effect₁ with
      | @finished _ _ s' steps there =>
        refine Arrives.after steps ?_
        obtain ⟨n, s'', b', more, same, _, hb', there'⟩ := choice s' there trivial
        obtain rfl : b' = b := by simpa [hb'] using hb
        cases b' with
        | true => exact (run s'' there' same).after more
        | false =>
          obtain ⟨rfl, rfl⟩ := run
          rw [← same]
          exact .finished more there'
    · cases body.arrives hs trivial effect₁ with
      | returned steps halt => exact .returned steps halt
  reflects := by
    intro fuel
    induction fuel using Nat.strongRecOn with
    | ind fuel ih =>
      intro s final completion hs _ halts
      obtain ⟨v, rfl, effect₁⟩ | ⟨left, s', less, there, effect₁, rest⟩ :=
        body.reflects hs trivial halts
      · exact .inl ⟨v, rfl, unfold_ ▸ .inr ⟨v, rfl, effect₁⟩⟩
      obtain ⟨n, s'', b, steps, same, _, hb, there'⟩ := choice s' there trivial
      obtain ⟨after, rfl, rest'⟩ := steps.rest rest
      cases b with
      | false =>
        refine .inr ⟨after, s'', by omega, there', unfold_ ▸ ?_, rest'⟩
        exact .inl ⟨s'.names, effect₁, false, hb, same, rfl⟩
      | true =>
        obtain ⟨v, rfl, effect₂⟩ | ⟨left', t, less', there'', effect₂, rest''⟩ :=
          ih after (by omega) there' trivial rest'
        · rw [same] at effect₂
          exact .inl ⟨v, rfl, unfold_ ▸ .inl ⟨s'.names, effect₁, true, hb, effect₂⟩⟩
        · rw [same] at effect₂
          refine .inr ⟨left', t, by omega, there'', unfold_ ▸ ?_, rest''⟩
          exact .inl ⟨s'.names, effect₁, true, hb, effect₂⟩

/-! ## Whole listings -/

/-- A listing that realizes an effect as a whole halts as the effect says. -/
theorem Realizes.halts_iff (h : Realizes arithmetic listing anyState 0 listing.length P)
    (names final : Valuation V) (temporaries : Temporary → V) (completion : Completion V) :
    Halts arithmetic listing names temporaries completion final ↔ P names final completion := by
  constructor
  · rintro ⟨fuel, halts⟩
    obtain ⟨v, rfl, effect⟩ | ⟨left, s', _, there, effect, rest⟩ :=
      h.reflects (s := ⟨0, names, temporaries⟩) rfl trivial halts
    · exact effect
    · cases left with
      | zero => simp [run?] at rest
      | succ left =>
        rw [run?, step?_end there] at rest
        obtain ⟨rfl, rfl⟩ : completion = .finished ∧ final = s'.names := by
          simpa [eq_comm] using rest
        exact effect
  · intro effect
    cases h.arrives (s := ⟨0, names, temporaries⟩) rfl trivial effect with
    | @finished n _ s' steps there =>
      refine ⟨n + 1, ?_⟩
      rw [steps.run?_add, run?, step?_end there]
    | @returned n _ s' v steps halt =>
      refine ⟨n + 1, ?_⟩
      rw [steps.run?_add, run?, halt]

end

end Quadrupler.Machine
