import Quadrupler.Tree.Execution
set_option autoImplicit false

/-!
# Effects

What a statement does is a relation between the values before it, the values after it, and
the way it ends.  The rules of execution are restated here as equations between such
relations, one for each kind of statement, built from doing nothing, doing one thing after
the other, and testing.  The two kinds of loops are moreover the least relations that
satisfy their equations (`repeats_least`, `doLoop_least`), which is what inductions over
the iterations of a loop rest on.
-/

namespace Quadrupler

variable {V : Type}

/-- From values of names to values of names, with the way it ends. -/
abbrev Effect (V : Type) : Type := Valuation V → Valuation V → Completion V → Prop

namespace Effect

protected theorem ext {P Q : Effect V}
    (h : ∀ names final completion, P names final completion ↔ Q names final completion) :
    P = Q := by
  funext names final completion
  exact propext (h names final completion)

/-- Nothing happens. -/
def skip : Effect V := fun names final completion => final = names ∧ completion = .finished

/-- One after the other, unless the first returns. -/
def andThen (P Q : Effect V) : Effect V := fun names final completion =>
  (∃ middle, P names middle .finished ∧ Q middle final completion) ∨
    ∃ v, completion = .returned v ∧ P names final (.returned v)

/-- The one if the condition holds, the other if it does not. -/
def choose (condition : Valuation V → Option Bool) (P Q : Effect V) : Effect V :=
  fun names final completion =>
    ∃ b, condition names = some b ∧
      if b then P names final completion else Q names final completion

theorem andThen_skip (P : Effect V) : P.andThen skip = P := by
  refine Effect.ext fun names final completion => ⟨?_, ?_⟩
  · rintro (⟨middle, effect, rfl, rfl⟩ | ⟨v, rfl, effect⟩)
    · exact effect
    · exact effect
  · intro effect
    cases completion with
    | finished => exact .inl ⟨final, effect, rfl, rfl⟩
    | returned v => exact .inr ⟨v, rfl, effect⟩

theorem andThen_assoc (P Q R : Effect V) : (P.andThen Q).andThen R = P.andThen (Q.andThen R) := by
  refine Effect.ext fun names final completion => ⟨?_, ?_⟩
  · rintro (⟨middle, ⟨early, first, second⟩ | ⟨v, hv, _⟩, third⟩ |
      ⟨v, rfl, ⟨early, first, second⟩ | ⟨w, hw, first⟩⟩)
    · exact .inl ⟨early, first, .inl ⟨middle, second, third⟩⟩
    · cases hv
    · exact .inl ⟨early, first, .inr ⟨v, rfl, second⟩⟩
    · exact .inr ⟨v, rfl, hw ▸ first⟩
  · rintro (⟨early, first, ⟨middle, second, third⟩ | ⟨v, rfl, second⟩⟩ | ⟨v, rfl, first⟩)
    · exact .inl ⟨middle, .inl ⟨early, first, second⟩, third⟩
    · exact .inr ⟨v, rfl, .inl ⟨early, first, second⟩⟩
    · exact .inr ⟨v, rfl, .inr ⟨v, rfl, first⟩⟩

end Effect

namespace Tree

open Effect

variable (arithmetic : Arithmetic V)

/-- Whether an expression holds. -/
def holds? (e : Tree) (names : Valuation V) : Option Bool :=
  (e.value? arithmetic names).map arithmetic.holds

/-- Whether a value fits the constant of an arm. -/
def fits? (v : V) (e : Tree) (names : Valuation V) : Option Bool :=
  (e.value? arithmetic names).map fun w => arithmetic.holds (arithmetic.apply .eq v w)

/-- Only numbers, names and operators have values. -/
theorem value?_eq_none {t : Tree} {names : Valuation V} (number : ∀ text, t.kind ≠ .number text)
    (identifier : ∀ name, t.kind ≠ .identifier name) (binary : ∀ op, t.kind ≠ .binary op) :
    t.value? arithmetic names = none := by
  rw [value?.eq_def]
  split
  · exact absurd rfl (number _)
  · exact absurd rfl (identifier _)
  · exact absurd rfl (binary _)
  · rfl

theorem isSequence_iff {t : Tree} :
    t.isSequence = true ↔ t.kind = .separator ∨ t.kind = .sequence := by
  rw [isSequence]
  split <;> simp_all

/-! ## Statements without parts -/

section

variable {p q : Location} {name : String} {l r left right : Option Tree} {e body : Tree}
  {ss us : List Tree} {names final : Valuation V} {completion : Completion V}

theorem executes_assign_iff :
    Executes arithmetic ⟨.assign, p, some ⟨.identifier name, q, l, r, us⟩, some e, ss⟩
        names final completion ↔
      ∃ v, e.value? arithmetic names = some v ∧ final = names.set name v ∧
        completion = .finished := by
  constructor
  · intro h
    cases h with
    | assign _ hleft hname hright hv =>
      cases hleft
      cases hname
      cases hright
      exact ⟨_, hv, rfl, rfl⟩
    | _ => simp_all [value?_eq_none, isSequence_iff]
  · rintro ⟨v, hv, rfl, rfl⟩
    exact .assign rfl rfl rfl rfl hv

/-- Steps are carried out by the operators that are emitted for them. -/
theorem executes_step_iff {op : StepOp} :
    Executes arithmetic ⟨.step op, p, some ⟨.identifier name, q, l, r, us⟩, right, ss⟩
        names final completion ↔
      final = names.set name (arithmetic.apply op.arithmetic (names name) (names "1")) ∧
        completion = .finished := by
  constructor
  · intro h
    cases h with
    | increment hkind hleft hname =>
      cases hkind
      cases hleft
      cases hname
      exact ⟨rfl, rfl⟩
    | decrement hkind hleft hname =>
      cases hkind
      cases hleft
      cases hname
      exact ⟨rfl, rfl⟩
    | _ => simp_all [value?_eq_none, isSequence_iff]
  · rintro ⟨rfl, rfl⟩
    cases op with
    | increment => exact .increment rfl rfl rfl
    | decrement => exact .decrement rfl rfl rfl

theorem executes_returning_iff :
    Executes arithmetic ⟨.returning, p, left, some e, ss⟩ names final completion ↔
      ∃ v, e.value? arithmetic names = some v ∧ final = names ∧ completion = .returned v := by
  constructor
  · intro h
    cases h with
    | returning _ hright hv =>
      cases hright
      exact ⟨_, hv, rfl, rfl⟩
    | _ => simp_all [value?_eq_none, isSequence_iff]
  · rintro ⟨v, hv, rfl, rfl⟩
    exact .returning rfl rfl hv

end

theorem executes_empty (p : Location) (left right : Option Tree) (ss : List Tree) :
    Executes arithmetic ⟨.empty, p, left, right, ss⟩ = skip := by
  refine Effect.ext fun names final completion => ⟨?_, ?_⟩
  · intro h
    cases h with
    | empty => exact ⟨rfl, rfl⟩
    | _ => simp_all [value?_eq_none, isSequence_iff]
  · rintro ⟨rfl, rfl⟩
    exact .empty rfl

/-- An expression that has a value under all names does nothing as a statement. -/
theorem executes_expression {t : Tree} (h : ∀ names, ∃ v, t.value? arithmetic names = some v) :
    Executes arithmetic t = skip := by
  refine Effect.ext fun names final completion => ⟨?_, ?_⟩
  · intro run
    obtain ⟨kind, p, left, right, ss⟩ := t
    obtain ⟨v, hv⟩ := h names
    cases run with
    | expression => exact ⟨rfl, rfl⟩
    | empty => exact ⟨rfl, rfl⟩
    | sequence row => obtain rfl | rfl := isSequence_iff.mp row <;> simp [value?_eq_none] at hv
    | sequenceReturns row =>
      obtain rfl | rfl := isSequence_iff.mp row <;> simp [value?_eq_none] at hv
    | _ => simp_all [value?_eq_none]
  · rintro ⟨rfl, rfl⟩
    obtain ⟨v, hv⟩ := h final
    exact .expression hv

/-! ## Statements with parts -/

theorem executes_ifThen (p : Location) (e body : Tree) (others : List Tree) :
    Executes arithmetic ⟨.ifThen, p, some e, some body, others⟩ =
      choose (holds? arithmetic e) (Executes arithmetic body)
        (ExecutesSlot arithmetic (elseBody? others)) := by
  refine Effect.ext fun names final completion => ⟨?_, ?_⟩
  · intro h
    cases h with
    | ifHolds _ hleft hright hv holds run =>
      cases hleft
      cases hright
      exact ⟨true, by simp [holds?, hv, holds], run⟩
    | ifFails _ hleft hv fails run =>
      cases hleft
      exact ⟨false, by simp [holds?, hv, fails], run⟩
    | _ => simp_all [value?_eq_none, isSequence_iff]
  · rintro ⟨b, hb, run⟩
    obtain ⟨v, hv, rfl⟩ := Option.map_eq_some_iff.mp hb
    cases holds : arithmetic.holds v with
    | true => exact .ifHolds rfl rfl rfl hv holds (by simpa [holds] using run)
    | false => exact .ifFails rfl rfl hv holds (by simpa [holds] using run)

theorem executes_whileLoop (p : Location) (e body : Tree) (ss : List Tree) :
    Executes arithmetic ⟨.whileLoop, p, some e, some body, ss⟩ =
      Repeats arithmetic e body none := by
  refine Effect.ext fun names final completion => ⟨?_, ?_⟩
  · intro h
    cases h with
    | whileLoop _ hleft hright run =>
      cases hleft
      cases hright
      exact run
    | _ => simp_all [value?_eq_none, isSequence_iff]
  · intro run
    exact .whileLoop rfl rfl rfl run

theorem executes_forLoop (p : Location) (e body first advance : Tree) :
    Executes arithmetic ⟨.forLoop, p, some e, some body, [first, advance]⟩ =
      andThen (Executes arithmetic first) (Repeats arithmetic e body (some advance)) := by
  refine Effect.ext fun names final completion => ⟨?_, ?_⟩
  · intro h
    cases h with
    | forLoop _ hleft hright head init run =>
      cases hleft
      cases hright
      cases head
      exact .inl ⟨_, init, run⟩
    | forLoopReturns _ head init =>
      cases head
      exact .inr ⟨_, rfl, init⟩
    | _ => simp_all [value?_eq_none, isSequence_iff]
  · rintro (⟨middle, init, run⟩ | ⟨v, rfl, init⟩)
    · exact .forLoop rfl rfl rfl rfl init run
    · exact .forLoopReturns rfl rfl init

theorem executes_doLoop (p : Location) (e body : Tree) (ss : List Tree) :
    Executes arithmetic ⟨.doLoop, p, some e, some body, ss⟩ =
      andThen (Executes arithmetic body)
        (choose (holds? arithmetic e)
          (Executes arithmetic ⟨.doLoop, p, some e, some body, ss⟩) skip) := by
  refine Effect.ext fun names final completion => ⟨?_, ?_⟩
  · intro h
    cases h with
    | doLoopEnds _ hleft hright run hv fails =>
      cases hleft
      cases hright
      exact .inl ⟨_, run, false, by simp [holds?, hv, fails], rfl, rfl⟩
    | doLoopAgain _ hleft hright run hv holds again =>
      cases hleft
      cases hright
      exact .inl ⟨_, run, true, by simp [holds?, hv, holds], again⟩
    | doLoopReturns _ hright run =>
      cases hright
      exact .inr ⟨_, rfl, run⟩
    | _ => simp_all [value?_eq_none, isSequence_iff]
  · rintro (⟨middle, run, b, hb, again⟩ | ⟨v, rfl, run⟩)
    · obtain ⟨v, hv, rfl⟩ := Option.map_eq_some_iff.mp hb
      cases holds : arithmetic.holds v with
      | true => exact .doLoopAgain rfl rfl rfl run hv holds (by simpa [holds] using again)
      | false =>
        obtain ⟨rfl, rfl⟩ : final = middle ∧ completion = .finished := by
          simpa [holds, skip] using again
        exact .doLoopEnds rfl rfl rfl run hv holds
    · exact .doLoopReturns rfl rfl run

theorem executes_switch_iff {p : Location} {e : Tree} {right : Option Tree} {ts : List Tree}
    {names final : Valuation V} {completion : Completion V} :
    Executes arithmetic ⟨.switch, p, some e, right, ts⟩ names final completion ↔
      ∃ v, e.value? arithmetic names = some v ∧
        ExecutesArms arithmetic v ts names final completion := by
  constructor
  · intro h
    cases h with
    | switch _ hleft hv run =>
      cases hleft
      exact ⟨_, hv, run⟩
    | _ => simp_all [value?_eq_none, isSequence_iff]
  · rintro ⟨v, hv, run⟩
    exact .switch rfl rfl hv run

theorem executes_row {t : Tree} (h : t.isSequence = true) :
    Executes arithmetic t =
      andThen (ExecutesSlot arithmetic t.left) (ExecutesSlot arithmetic t.right) := by
  obtain ⟨kind, p, left, right, ss⟩ := t
  refine Effect.ext fun names final completion => ⟨?_, ?_⟩
  · intro run
    cases run with
    | sequence _ first second => exact .inl ⟨_, first, second⟩
    | sequenceReturns _ first => exact .inr ⟨_, rfl, first⟩
    | expression hv => obtain rfl | rfl := isSequence_iff.mp h <;> simp [value?_eq_none] at hv
    | _ => simp_all [isSequence_iff]
  · rintro (⟨middle, first, second⟩ | ⟨v, rfl, first⟩)
    · exact .sequence h first second
    · exact .sequenceReturns h first

theorem executes_block (p : Location) (left right : Option Tree) (ss : List Tree) :
    Executes arithmetic ⟨.block, p, left, right, ss⟩ = ExecutesAll arithmetic ss := by
  refine Effect.ext fun names final completion => ⟨?_, ?_⟩
  · intro h
    cases h with
    | block _ run => exact run
    | _ => simp_all [value?_eq_none, isSequence_iff]
  · intro run
    exact .block rfl run

/-! ## Slots, statements in a row, and arms -/

theorem executesSlot_none : ExecutesSlot arithmetic none = skip := by
  refine Effect.ext fun names final completion => ⟨?_, ?_⟩
  · rintro ⟨⟩
    exact ⟨rfl, rfl⟩
  · rintro ⟨rfl, rfl⟩
    exact .none

theorem executesSlot_some (t : Tree) :
    ExecutesSlot arithmetic (some t) = Executes arithmetic t := by
  refine Effect.ext fun names final completion => ⟨?_, .some⟩
  rintro ⟨⟩
  assumption

theorem executesAll_nil : ExecutesAll arithmetic [] = skip := by
  refine Effect.ext fun names final completion => ⟨?_, ?_⟩
  · rintro ⟨⟩
    exact ⟨rfl, rfl⟩
  · rintro ⟨rfl, rfl⟩
    exact .nil

theorem executesAll_cons (t : Tree) (ts : List Tree) :
    ExecutesAll arithmetic (t :: ts) =
      andThen (Executes arithmetic t) (ExecutesAll arithmetic ts) := by
  refine Effect.ext fun names final completion => ⟨?_, ?_⟩
  · intro h
    cases h with
    | cons first others => exact .inl ⟨_, first, others⟩
    | returns first => exact .inr ⟨_, rfl, first⟩
  · rintro (⟨middle, first, others⟩ | ⟨v, rfl, first⟩)
    · exact .cons first others
    · exact .returns first

theorem executesArms_nil (v : V) : ExecutesArms arithmetic v [] = skip := by
  refine Effect.ext fun names final completion => ⟨?_, ?_⟩
  · rintro ⟨⟩
    exact ⟨rfl, rfl⟩
  · rintro ⟨rfl, rfl⟩
    exact .nil

theorem executesArms_caseArm (v : V) (p : Location) (e body : Tree) (ss others : List Tree) :
    ExecutesArms arithmetic v (⟨.caseArm, p, some e, some body, ss⟩ :: others) =
      choose (fits? arithmetic v e) (Executes arithmetic body)
        (ExecutesArms arithmetic v others) := by
  refine Effect.ext fun names final completion => ⟨?_, ?_⟩
  · intro h
    cases h with
    | fits _ hleft hright hw holds run =>
      cases hleft
      cases hright
      exact ⟨true, by simp [fits?, hw, holds], run⟩
    | differs _ hleft hw fails run =>
      cases hleft
      exact ⟨false, by simp [fits?, hw, fails], run⟩
    | otherwise hkind => simp at hkind
  · rintro ⟨b, hb, run⟩
    obtain ⟨w, hw, rfl⟩ := Option.map_eq_some_iff.mp hb
    cases holds : arithmetic.holds (arithmetic.apply .eq v w) with
    | true => exact .fits rfl rfl rfl hw holds (by simpa [holds] using run)
    | false => exact .differs rfl rfl hw holds (by simpa [holds] using run)

theorem executesArms_defaultArm (v : V) (p : Location) (left : Option Tree) (body : Tree)
    (ss others : List Tree) :
    ExecutesArms arithmetic v (⟨.defaultArm, p, left, some body, ss⟩ :: others) =
      Executes arithmetic body := by
  refine Effect.ext fun names final completion => ⟨?_, ?_⟩
  · intro h
    cases h with
    | fits hkind => simp at hkind
    | differs hkind => simp at hkind
    | otherwise _ hright run =>
      cases hright
      exact run
  · intro run
    exact .otherwise rfl rfl run

/-! ## Loops -/

theorem repeats_eq (e body : Tree) (advance : Option Tree) :
    Repeats arithmetic e body advance =
      choose (holds? arithmetic e)
        (andThen (Executes arithmetic body)
          (andThen (ExecutesSlot arithmetic advance) (Repeats arithmetic e body advance)))
        skip := by
  refine Effect.ext fun names final completion => ⟨?_, ?_⟩
  · intro h
    cases h with
    | ends hv fails => exact ⟨false, by simp [holds?, hv, fails], rfl, rfl⟩
    | again hv holds run next more =>
      exact ⟨true, by simp [holds?, hv, holds], .inl ⟨_, run, .inl ⟨_, next, more⟩⟩⟩
    | bodyReturns hv holds run =>
      exact ⟨true, by simp [holds?, hv, holds], .inr ⟨_, rfl, run⟩⟩
    | advanceReturns hv holds run next =>
      exact ⟨true, by simp [holds?, hv, holds], .inl ⟨_, run, .inr ⟨_, rfl, next⟩⟩⟩
  · rintro ⟨b, hb, run⟩
    obtain ⟨v, hv, rfl⟩ := Option.map_eq_some_iff.mp hb
    cases holds : arithmetic.holds v with
    | true =>
      rw [if_pos holds] at run
      obtain ⟨middle, run, ⟨next, advanced, more⟩ | ⟨w, rfl, advanced⟩⟩ | ⟨w, rfl, run⟩ := run
      · exact .again hv holds run advanced more
      · exact .advanceReturns hv holds run advanced
      · exact .bodyReturns hv holds run
    | false =>
      obtain ⟨rfl, rfl⟩ : final = names ∧ completion = .finished := by
        simpa [holds, skip] using run
      exact .ends hv holds

/-- A relation that admits every iteration of a loop that tests first admits its runs. -/
theorem repeats_least {e body : Tree} {advance : Option Tree} {P : Effect V}
    (closed : ∀ {names final : Valuation V} {completion : Completion V},
      choose (holds? arithmetic e)
        (andThen (Executes arithmetic body) (andThen (ExecutesSlot arithmetic advance) P))
        skip names final completion → P names final completion) :
    ∀ {names final : Valuation V} {completion : Completion V},
      Repeats arithmetic e body advance names final completion → P names final completion
  | _, _, _, .ends hv fails => closed ⟨false, by simp [holds?, hv, fails], rfl, rfl⟩
  | _, _, _, .again hv holds run next more =>
    closed ⟨true, by simp [holds?, hv, holds],
      .inl ⟨_, run, .inl ⟨_, next, repeats_least closed more⟩⟩⟩
  | _, _, _, .bodyReturns hv holds run =>
    closed ⟨true, by simp [holds?, hv, holds], .inr ⟨_, rfl, run⟩⟩
  | _, _, _, .advanceReturns hv holds run next =>
    closed ⟨true, by simp [holds?, hv, holds], .inl ⟨_, run, .inr ⟨_, rfl, next⟩⟩⟩

/-- A relation that admits every iteration of a loop that tests last admits its runs. -/
theorem doLoop_least {p : Location} {e body : Tree} {ss : List Tree} {P : Effect V}
    (closed : ∀ {names final : Valuation V} {completion : Completion V},
      andThen (Executes arithmetic body) (choose (holds? arithmetic e) P skip)
        names final completion →
      P names final completion) :
    ∀ {t : Tree} {names final : Valuation V} {completion : Completion V},
      Executes arithmetic t names final completion →
      t = ⟨.doLoop, p, some e, some body, ss⟩ → P names final completion
  | _, _, _, _, .doLoopEnds _ hleft hright run hv fails, ht => by
    subst ht
    cases hleft
    cases hright
    exact closed (.inl ⟨_, run, false, by simp [holds?, hv, fails], rfl, rfl⟩)
  | _, _, _, _, .doLoopAgain _ hleft hright run hv holds again, ht => by
    have more := doLoop_least closed again ht
    subst ht
    cases hleft
    cases hright
    exact closed (.inl ⟨_, run, true, by simp [holds?, hv, holds], more⟩)
  | _, _, _, _, .doLoopReturns _ hright run, ht => by
    subst ht
    cases hright
    exact closed (.inr ⟨_, rfl, run⟩)
  | _, _, _, _, .assign hkind _ _ _ _, ht => by simp [ht] at hkind
  | _, _, _, _, .increment hkind _ _, ht => by simp [ht] at hkind
  | _, _, _, _, .decrement hkind _ _, ht => by simp [ht] at hkind
  | _, _, _, _, .returning hkind _ _, ht => by simp [ht] at hkind
  | _, _, _, _, .ifHolds hkind _ _ _ _ _, ht => by simp [ht] at hkind
  | _, _, _, _, .ifFails hkind _ _ _ _, ht => by simp [ht] at hkind
  | _, _, _, _, .whileLoop hkind _ _ _, ht => by simp [ht] at hkind
  | _, _, _, _, .forLoop hkind _ _ _ _ _, ht => by simp [ht] at hkind
  | _, _, _, _, .forLoopReturns hkind _ _, ht => by simp [ht] at hkind
  | _, _, _, _, .switch hkind _ _ _, ht => by simp [ht] at hkind
  | _, _, _, _, .sequence hkind _ _, ht => by simp [ht, isSequence_iff] at hkind
  | _, _, _, _, .sequenceReturns hkind _, ht => by simp [ht, isSequence_iff] at hkind
  | _, _, _, _, .block hkind _, ht => by simp [ht] at hkind
  | _, _, _, _, .empty hkind, ht => by simp [ht] at hkind
  | _, _, _, _, .expression hv, ht => by simp [ht, value?] at hv

end Tree

end Quadrupler
