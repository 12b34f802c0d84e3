import Quadrupler.Quadruple.Machine
set_option autoImplicit false

/-!
# Runs of the machine

`Steps n s s'` says that `n` quadruples lead from one state to another.  The machine has
at most one next state, so what holds of a run that halts can be said of the rest of it
once some steps are known (`Steps.rest`).  `Placed` says where in a listing a piece of code
stands; from there on each quadruple has one lemma that says what it does.
-/

namespace Quadrupler

/-! ## Code in a listing -/

/-- The code stands at this index of the listing. -/
def Listing.Placed (listing : Listing) : Nat → Listing → Prop
  | _, [] => True
  | i, q :: code => listing[i]? = some q ∧ Placed listing (i + 1) code

namespace Listing

@[simp] theorem placed_nil (listing : Listing) (i : Nat) : listing.Placed i [] := trivial

theorem placed_cons {listing code : Listing} {i : Nat} {q : Quadruple} :
    listing.Placed i (q :: code) ↔ listing[i]? = some q ∧ listing.Placed (i + 1) code :=
  Iff.rfl

theorem placed_append {listing code₁ code₂ : Listing} {i : Nat} :
    listing.Placed i (code₁ ++ code₂) ↔
      listing.Placed i code₁ ∧ listing.Placed (i + code₁.length) code₂ := by
  induction code₁ generalizing i with
  | nil => simp
  | cons q code₁ ih =>
    have shift : i + 1 + code₁.length = i + (q :: code₁).length := by
      rw [List.length_cons]; omega
    rw [List.cons_append, placed_cons, placed_cons, ih, shift, and_assoc]

/-- A listing stands at its own beginning. -/
theorem placed_zero (listing : Listing) : listing.Placed 0 listing := by
  suffices h : ∀ before code : Listing, (before ++ code).Placed before.length code from h [] listing
  intro before code
  induction code generalizing before with
  | nil => simp
  | cons q code ih =>
    refine ⟨by simp, ?_⟩
    simpa using ih (before ++ [q])

end Listing

namespace Machine

variable {V : Type} {arithmetic : Arithmetic V} {listing : Listing}

/-! ## Steps -/

/-- So many quadruples lead from one state to another. -/
inductive Steps (arithmetic : Arithmetic V) (listing : Listing) :
    Nat → State V → State V → Prop where
  | refl {s : State V} : Steps arithmetic listing 0 s s
  | step {n : Nat} {s next final : State V} :
      step? arithmetic listing s = some (.running next) → Steps arithmetic listing n next final →
      Steps arithmetic listing (n + 1) s final

namespace Steps

theorem one {s next : State V} (h : step? arithmetic listing s = some (.running next)) :
    Steps arithmetic listing 1 s next :=
  .step h .refl

theorem trans {m n : Nat} {s middle final : State V} (first : Steps arithmetic listing m s middle)
    (second : Steps arithmetic listing n middle final) :
    Steps arithmetic listing (m + n) s final := by
  induction first with
  | refl => simpa using second
  | step h _ ih =>
    rw [Nat.add_right_comm]
    exact .step h (ih second)

/-- A run is as long as its first steps and the run after them. -/
theorem run?_add {n fuel : Nat} {s s' : State V} (h : Steps arithmetic listing n s s') :
    run? arithmetic listing (n + fuel) s = run? arithmetic listing fuel s' := by
  induction h with
  | refl => rw [Nat.zero_add]
  | step next _ ih =>
    rw [Nat.add_right_comm, run?, next]
    exact ih

/-- A run that halts still has its first steps to take, and halts after them. -/
theorem rest {n fuel : Nat} {s s' : State V} {result : Completion V × Valuation V}
    (h : Steps arithmetic listing n s s') (halts : run? arithmetic listing fuel s = some result) :
    ∃ left, fuel = n + left ∧ run? arithmetic listing left s' = some result := by
  induction h generalizing fuel with
  | refl => exact ⟨fuel, by rw [Nat.zero_add], halts⟩
  | step next _ ih =>
    cases fuel with
    | zero => simp [run?] at halts
    | succ fuel =>
      rw [run?, next] at halts
      obtain ⟨left, rfl, rest⟩ := ih halts
      exact ⟨left, by rw [Nat.add_right_comm], rest⟩

end Steps

/-! ## What each quadruple does -/

section

variable {s : State V} {i there : Nat} {v w : V} {x y : Operand} {l : Label}

theorem step_label (at_ : listing[s.index]? = some (.label l)) :
    Steps arithmetic listing 1 s { s with index := s.index + 1 } :=
  .one (by simp [step?, at_, Quadruple.label, State.skip])

theorem step_goto (at_ : listing[s.index]? = some (.goto l))
    (target : listing.position? l = some there) :
    Steps arithmetic listing 1 s { s with index := there } :=
  .one (by
    simp [step?, at_, Quadruple.goto, Listing.landing?, Quadruple.target?, Quadruple.isJump,
      Operation.isJump, Operand.label?, target])

theorem step_ifFalse (at_ : listing[s.index]? = some (.ifFalse x l))
    (target : listing.position? l = some there) (hx : s.value? x = some v) :
    Steps arithmetic listing 1 s
      { s with index := if arithmetic.holds v then s.index + 1 else there } :=
  .one (by
    cases holds : arithmetic.holds v <;>
      simp [step?, at_, Quadruple.ifFalse, Listing.landing?, Quadruple.target?, Quadruple.isJump,
        Operation.isJump, Operand.label?, target, hx, holds, State.skip])

theorem step_ifTrue (at_ : listing[s.index]? = some (.ifTrue x l))
    (target : listing.position? l = some there) (hx : s.value? x = some v) :
    Steps arithmetic listing 1 s
      { s with index := if arithmetic.holds v then there else s.index + 1 } :=
  .one (by
    cases holds : arithmetic.holds v <;>
      simp [step?, at_, Quadruple.ifTrue, Listing.landing?, Quadruple.target?, Quadruple.isJump,
        Operation.isJump, Operand.label?, target, hx, holds, State.skip])

theorem step_assign {name : String} (at_ : listing[s.index]? = some (.assign x name))
    (hx : s.value? x = some v) :
    Steps arithmetic listing 1 s ⟨s.index + 1, s.names.set name v, s.temporaries⟩ :=
  .one (by simp [step?, at_, Quadruple.assign, hx, State.store?])

theorem step_binary {op : BinaryOp} {t : Temporary}
    (at_ : listing[s.index]? = some (.binary op x y t))
    (hx : s.value? x = some v) (hy : s.value? y = some w) :
    Steps arithmetic listing 1 s
      ⟨s.index + 1, s.names,
        fun other => if other = t then arithmetic.apply op v w else s.temporaries other⟩ :=
  .one (by simp [step?, at_, Quadruple.binary, hx, hy, State.store?])

theorem step?_returning (at_ : listing[s.index]? = some (.returning x))
    (hx : s.value? x = some v) :
    step? arithmetic listing s = some (.halted (.returned v)) := by
  simp [step?, at_, Quadruple.returning, hx]

theorem step?_end (past : s.index = listing.length) :
    step? arithmetic listing s = some (.halted .finished) := by
  simp [step?, past]

end

end Machine

end Quadrupler
