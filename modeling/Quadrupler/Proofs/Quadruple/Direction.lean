import Quadrupler.Proofs.Quadruple.Run
set_option autoImplicit false

/-!
# Which way jumps go

A jump goes ahead in its listing or back.  `Heads` says what is asked of one quadruple: it makes
sense to the machine, a test that jumps on failure goes ahead, a test that jumps on success goes
back, and a plain jump is counted if it goes back.  A machine halts on a listing without jumps
that go back, since every step leads further down.
-/

namespace Quadrupler

/-- A name or a temporary. -/
def Operand.isValue : Operand → Bool
  | .name _ | .temporary _ => true
  | .absent | .label _ => false

theorem Machine.State.exists_value {V : Type} (s : State V) {x : Operand}
    (h : x.isValue = true) : ∃ v, s.value? x = some v := by
  cases x with
  | name text => exact ⟨s.names text, rfl⟩
  | temporary t => exact ⟨s.temporaries t, rfl⟩
  | absent => cases h
  | label => cases h

namespace Listing

variable {listing code code' : Listing} {i m n : Nat} {q : Quadruple} {back : Bool}

/-- The quadruple at the index jumps to a place before it. -/
def goesBack (listing : Listing) (index : Nat) (q : Quadruple) : Bool :=
  (listing.landing? q).any (· < index)

/-- How many jumps go back. -/
def backJumps (listing : Listing) : Nat :=
  listing.zipIdx.countP fun entry => listing.goesBack entry.2 entry.1

@[simp] theorem landing?_ifFalse (listing : Listing) (x : Operand) (l : Label) :
    listing.landing? (.ifFalse x l) = listing.position? l := rfl

@[simp] theorem landing?_ifTrue (listing : Listing) (x : Operand) (l : Label) :
    listing.landing? (.ifTrue x l) = listing.position? l := rfl

@[simp] theorem landing?_goto (listing : Listing) (l : Label) :
    listing.landing? (.goto l) = listing.position? l := rfl

/-! ## One quadruple -/

/-- The quadruple makes sense at the index, its tests go their ways, and it is known whether it
jumps back. -/
inductive Heads (listing : Listing) (i : Nat) : Quadruple → Bool → Prop where
  | binary {op : BinaryOp} {x y : Operand} {t : Temporary} :
      x.isValue = true → y.isValue = true → Heads listing i (.binary op x y t) false
  | assign {x : Operand} {name : String} :
      x.isValue = true → Heads listing i (.assign x name) false
  | returning {x : Operand} : x.isValue = true → Heads listing i (.returning x) false
  | label {l : Label} : Heads listing i (.label l) false
  | ifFalse {x : Operand} {l : Label} {there : Nat} :
      x.isValue = true → listing.position? l = some there → i < there →
      Heads listing i (.ifFalse x l) false
  | ahead {l : Label} {there : Nat} :
      listing.position? l = some there → i < there → Heads listing i (.goto l) false
  | back {l : Label} {there : Nat} :
      listing.position? l = some there → there < i → Heads listing i (.goto l) true
  | ifTrue {x : Operand} {l : Label} {there : Nat} :
      x.isValue = true → listing.position? l = some there → there < i →
      Heads listing i (.ifTrue x l) true

namespace Heads

theorem goesBack_eq (h : Heads listing i q back) : listing.goesBack i q = back := by
  cases h with
  | binary => rfl
  | assign => rfl
  | returning => rfl
  | label => rfl
  | ifFalse _ target ahead => simp [goesBack, target, Nat.le_of_lt ahead]
  | ahead target ahead => simp [goesBack, target, Nat.le_of_lt ahead]
  | back target back => simp [goesBack, target, back]
  | ifTrue _ target back => simp [goesBack, target, back]

theorem ahead_of_ifFalse (h : Heads listing i q back) (test : q.operation = .ifFalse) :
    ∃ there, listing.landing? q = some there ∧ i < there := by
  cases h with
  | ifFalse _ target ahead => exact ⟨_, target, ahead⟩
  | _ => cases test

theorem back_of_ifTrue (h : Heads listing i q back) (test : q.operation = .ifTrue) :
    ∃ there, listing.landing? q = some there ∧ there < i := by
  cases h with
  | ifTrue _ target back => exact ⟨_, target, back⟩
  | _ => cases test

end Heads

/-! ## Code -/

/-- The quadruples of the code, which stands at the index, head where they should, and so many of
their jumps go back. -/
inductive Directed (listing : Listing) : Nat → Listing → Nat → Prop where
  | nil {i : Nat} : Directed listing i [] 0
  | pass {i n : Nat} {q : Quadruple} {code : Listing} :
      Heads listing i q false → Directed listing (i + 1) code n → Directed listing i (q :: code) n
  | turn {i n : Nat} {q : Quadruple} {code : Listing} :
      Heads listing i q true → Directed listing (i + 1) code n →
      Directed listing i (q :: code) (n + 1)

namespace Directed

theorem append (h : Directed listing i code m)
    (h' : Directed listing (i + code.length) code' n) :
    Directed listing i (code ++ code') (m + n) := by
  have shift (j : Nat) (q : Quadruple) (code : Listing) :
      j + (q :: code).length = j + 1 + code.length := by
    rw [List.length_cons]
    omega
  induction h with
  | nil => simpa using h'
  | pass heads _ ih =>
    rw [shift] at h'
    exact .pass heads (ih h')
  | turn heads _ ih =>
    rw [shift] at h'
    rw [Nat.add_right_comm]
    exact .turn heads (ih h')

/-- After code that does not jump back, only the rest counts. -/
theorem after (h : Directed listing i code 0)
    (h' : Directed listing (i + code.length) code' n) : Directed listing i (code ++ code') n := by
  have whole := h.append h'
  rwa [Nat.zero_add] at whole

theorem exists_heads (h : Directed listing i code n) {k : Nat} (at_ : code[k]? = some q) :
    ∃ back, Heads listing (i + k) q back ∧ (n = 0 → back = false) := by
  induction h generalizing k with
  | nil => simp at at_
  | @pass i n p code heads _ ih =>
    cases k with
    | zero =>
      obtain rfl : p = q := Option.some.inj at_
      exact ⟨false, heads, fun _ => rfl⟩
    | succ k =>
      rw [← Nat.add_assoc, Nat.add_right_comm]
      exact ih at_
  | @turn i n p code heads _ ih =>
    cases k with
    | zero =>
      obtain rfl : p = q := Option.some.inj at_
      exact ⟨true, heads, fun none => absurd none (Nat.succ_ne_zero n)⟩
    | succ k =>
      obtain ⟨back, heads', -⟩ := ih at_
      rw [Nat.add_right_comm] at heads'
      exact ⟨back, heads', fun none => absurd none (Nat.succ_ne_zero n)⟩

theorem countP_eq (h : Directed listing i code n) :
    ((code.zipIdx i).countP fun entry => listing.goesBack entry.2 entry.1) = n := by
  induction h with
  | nil => rfl
  | pass heads _ ih =>
    rw [List.zipIdx_cons, List.countP_cons_of_neg, ih]
    simp [heads.goesBack_eq]
  | turn heads _ ih =>
    rw [List.zipIdx_cons, List.countP_cons_of_pos, ih]
    exact heads.goesBack_eq

end Directed

end Listing

/-! ## Runs that go ahead only -/

namespace Machine

variable {V : Type} {arithmetic : Arithmetic V} {listing : Listing} {s : State V}

/-- Where no jump goes back, a step leads ahead or halts. -/
theorem step_of_heads {q : Quadruple} (at_ : listing[s.index]? = some q)
    (h : listing.Heads s.index q false) :
    (∃ next, Steps arithmetic listing 1 s next ∧ s.index < next.index) ∨
      ∃ completion, step? arithmetic listing s = some (.halted completion) := by
  have further : s.index < s.index + 1 := Nat.lt_succ_self s.index
  cases h with
  | binary hx hy =>
    obtain ⟨v, hv⟩ := s.exists_value hx
    obtain ⟨w, hw⟩ := s.exists_value hy
    exact .inl ⟨_, step_binary at_ hv hw, further⟩
  | assign hx =>
    obtain ⟨v, hv⟩ := s.exists_value hx
    exact .inl ⟨_, step_assign at_ hv, further⟩
  | returning hx =>
    obtain ⟨v, hv⟩ := s.exists_value hx
    exact .inr ⟨_, step?_returning at_ hv⟩
  | label => exact .inl ⟨_, step_label at_, further⟩
  | ifFalse hx target ahead =>
    obtain ⟨v, hv⟩ := s.exists_value hx
    refine .inl ⟨_, step_ifFalse at_ target hv, ?_⟩
    dsimp only
    split
    · exact further
    · exact ahead
  | ahead target ahead => exact .inl ⟨_, step_goto at_ target, ahead⟩

/-- A listing in which no jump goes back halts from every state. -/
theorem exists_run_of_heads
    (h : ∀ i q, listing[i]? = some q → listing.Heads i q false) (s : State V) :
    ∃ fuel result, run? arithmetic listing fuel s = some result := by
  induction left : listing.length - s.index using Nat.strongRecOn generalizing s with
  | ind left ih =>
    subst left
    rcases at_ : listing[s.index]? with _ | q
    · refine ⟨1, (.finished, s.names), ?_⟩
      simp [run?, step?, at_]
    · have inside := (List.getElem?_eq_some_iff.mp at_).1
      rcases step_of_heads at_ (h s.index q at_) with ⟨next, steps, ahead⟩ | ⟨completion, halted⟩
      · obtain ⟨fuel, result, run⟩ := ih _ (by omega) next rfl
        exact ⟨1 + fuel, result, steps.run?_add.trans run⟩
      · refine ⟨1, (completion, s.names), ?_⟩
        simp [run?, halted]

end Machine

end Quadrupler
