import Quadrupler.Proofs.Lowering.Labels
import Quadrupler.Proofs.Quadruple.Realization
set_option autoImplicit false

/-!
# Lowering preserves meaning

The code of every piece realizes the effect of the piece, wherever it stands in a listing
that defines no label twice.  The proof goes by induction over the rules by which code is
emitted and follows the theorems of `Machine.Realizes` rule by rule.  Only expressions need
an argument about temporaries: what they compute stays where it is while other expressions
are computed, because those write to temporaries drawn later.
-/

namespace Quadrupler

open Machine Effect

variable {V : Type} {arithmetic : Arithmetic V} {listing : Listing}

/-! ## Temporaries -/

/-- The operand is a name, or a temporary drawn before so many others. -/
def Operand.Below (n : Nat) : Operand → Prop
  | .name _ => True
  | .temporary t => t.index < n
  | .absent | .label _ => False

theorem Operand.Below.mono {x : Operand} {m n : Nat} (h : x.Below m) (le : m ≤ n) : x.Below n := by
  cases x with
  | name => trivial
  | temporary t => exact Nat.lt_of_lt_of_le h le
  | absent => exact h
  | label => exact h

/-- Same names, and the same in all temporaries drawn before so many others. -/
def Machine.State.Agrees (n : Nat) (s s' : State V) : Prop :=
  s'.names = s.names ∧ ∀ t : Temporary, t.index < n → s'.temporaries t = s.temporaries t

namespace Machine.State.Agrees

theorem trans {m n : Nat} {s s' s'' : State V} (first : Agrees m s s') (second : Agrees n s' s'')
    (le : m ≤ n) : Agrees m s s'' := by
  refine ⟨second.1.trans first.1, fun t ht => ?_⟩
  rw [second.2 t (Nat.lt_of_lt_of_le ht le), first.2 t ht]

theorem value?_eq {n : Nat} {s s' : State V} {x : Operand} (h : Agrees n s s') (below : x.Below n) :
    s'.value? x = s.value? x := by
  cases x with
  | name text => simp [State.value?, h.1]
  | temporary t => simp [State.value?, h.2 t below]
  | absent => rfl
  | label => rfl

theorem names_eq {n : Nat} {s s' : State V} (h : Agrees n s s') : s'.names = s.names :=
  h.1

end Machine.State.Agrees

/-- An operation leaves its result in its temporary, and all that was drawn before as it was. -/
theorem Machine.steps_binary (arithmetic : Arithmetic V) {s : State V} {n : Nat}
    {op : BinaryOp} {x y : Operand} {v w : V} {t : Temporary}
    (at_ : listing[s.index]? = some (.binary op x y t))
    (hx : s.value? x = some v) (hy : s.value? y = some w) (above : n ≤ t.index) :
    ∃ s', Steps arithmetic listing 1 s s' ∧ s'.index = s.index + 1 ∧ s.Agrees n s' ∧
      s'.value? (.temporary t) = some (arithmetic.apply op v w) := by
  refine ⟨_, step_binary at_ hx hy, rfl, ⟨rfl, fun other before => if_neg ?_⟩, ?_⟩
  · rintro rfl
    omega
  · simp [State.value?]

namespace Lowering

theorem EmitsValue.temporaries_le {e : Tree} {c c' : Counters} {x : Operand} {code : Listing}
    (h : EmitsValue e c x code c') : c.temporaries ≤ c'.temporaries := by
  induction h with
  | number => exact Nat.le_refl _
  | identifier => exact Nat.le_refl _
  | binary _ _ ihLeft ihRight => exact Nat.le_succ_of_le (Nat.le_trans ihLeft ihRight)

theorem EmitsValue.result_below {e : Tree} {c c' : Counters} {x : Operand} {code : Listing}
    (h : EmitsValue e c x code c') : x.Below c'.temporaries := by
  cases h with
  | number => trivial
  | identifier => trivial
  | binary => exact Nat.lt_succ_self _

theorem temporaries_drawBehind (c : Counters) (done : Option Label) :
    (c.drawBehind done).temporaries = c.temporaries := by
  cases done <;> rfl

theorem temporaries_le_of_emits {piece : Piece} {c c' : Counters} {code : Listing}
    (h : Emits piece c code c') : c.temporaries ≤ c'.temporaries := by
  induction h with
  | assign he => exact he.temporaries_le
  | step => exact Nat.le_succ _
  | returning he => exact he.temporaries_le
  | ifThen _ htest _ _ ihBody ihOther =>
    exact Nat.le_trans htest.temporaries_le (Nat.le_trans ihBody ihOther)
  | whileLoop _ ih => exact ih
  | forLoop _ _ ihFirst ihLoop => exact Nat.le_trans ihFirst ihLoop
  | doLoop _ htest ihBody => exact Nat.le_trans ihBody htest.temporaries_le
  | switch he _ ihArms =>
    rw [temporaries_drawBehind]
    exact Nat.le_trans he.temporaries_le ihArms
  | row _ _ _ ihLeft ihRight => exact Nat.le_trans ihLeft ihRight
  | block _ ih => exact ih
  | empty => exact Nat.le_refl _
  | expression he => exact he.temporaries_le
  | noSlot => exact Nat.le_refl _
  | slot _ ih => exact ih
  | noStatements => exact Nat.le_refl _
  | statements _ _ ihFirst ihOthers => exact Nat.le_trans ihFirst ihOthers
  | loop htest _ _ ihBody ihAdvance =>
    exact Nat.le_trans htest.temporaries_le (Nat.le_trans ihBody ihAdvance)
  | noArms => exact Nat.le_refl _
  | caseArm he _ _ ihBody ihOthers =>
    rw [temporaries_drawBehind] at ihOthers
    exact Nat.le_trans (Nat.le_succ_of_le he.temporaries_le) (Nat.le_trans ihBody ihOthers)
  | defaultArm _ _ ihBody ihOthers =>
    rw [temporaries_drawBehind] at ihOthers
    exact Nat.le_trans ihBody ihOthers

/-! ## Expressions -/

/-- The code of an expression leaves its value in its operand, and all that was computed
before where it was. -/
theorem EmitsValue.steps {e : Tree} {c c' : Counters} {x : Operand} {code : Listing}
    (h : EmitsValue e c x code c') (arithmetic : Arithmetic V) {i : Nat}
    (placed : listing.Placed i code) (s : State V) (hs : s.index = i) :
    ∃ s' v, Steps arithmetic listing code.length s s' ∧ s'.index = i + code.length ∧
      s.Agrees c.temporaries s' ∧ s'.value? x = some v ∧
      e.value? arithmetic s.names = some v := by
  induction h generalizing i s with
  | number =>
    exact ⟨s, _, .refl, by simpa using hs, ⟨rfl, fun _ _ => rfl⟩, rfl, by simp [Tree.value?]⟩
  | identifier =>
    exact ⟨s, _, .refl, by simpa using hs, ⟨rfl, fun _ _ => rfl⟩, rfl, by simp [Tree.value?]⟩
  | @binary op p left right ss c c₁ c₂ first second code₁ code₂ hleft hright ihLeft ihRight =>
    simp only [Listing.placed_append, Listing.placed_cons, List.length_append] at placed
    obtain ⟨⟨placed₁, placed₂⟩, at_, -⟩ := placed
    obtain ⟨s₁, v, steps₁, there₁, agrees₁, value₁, meaning₁⟩ := ihLeft placed₁ s hs
    obtain ⟨s₂, w, steps₂, there₂, agrees₂, value₂, meaning₂⟩ := ihRight placed₂ s₁ there₁
    have value₁' : s₂.value? first = some v := by rw [agrees₂.value?_eq hleft.result_below, value₁]
    have index : s₂.index = i + (code₁.length + code₂.length) := by omega
    have above : c.temporaries ≤ c₂.temporary.index :=
      Nat.le_trans hleft.temporaries_le hright.temporaries_le
    obtain ⟨s₃, step, there₃, agrees₃, value₃⟩ :=
      steps_binary arithmetic (index ▸ at_) value₁' value₂ above
    refine ⟨s₃, _, ?_, ?_, ?_, value₃, ?_⟩
    · simpa [Nat.add_assoc] using (steps₁.trans steps₂).trans step
    · simp only [List.length_append, List.length_cons, List.length_nil]
      omega
    · exact (agrees₁.trans agrees₂ hleft.temporaries_le).trans agrees₃ (Nat.le_refl _)
    · rw [agrees₁.names_eq] at meaning₂
      simp [Tree.value?, meaning₁, meaning₂]

/-! ## Tests -/

section

variable {e : Tree} {c c' : Counters} {x : Operand} {code : Listing} {l : Label}
  {start here there : Nat}

theorem EmitsValue.chooses_ifFalse (h : EmitsValue e c x code c')
    (placed : listing.Placed start code) (end_ : here = start + code.length)
    (at_ : listing[here]? = some (.ifFalse x l)) (target : listing.position? l = some there) :
    Chooses arithmetic listing anyState start (e.holds? arithmetic) (here + 1) there := by
  intro s hs _
  obtain ⟨s', v, steps, index, agrees, value, meaning⟩ :=
    h.steps arithmetic placed s hs
  obtain rfl : s'.index = here := by omega
  refine ⟨_, _, arithmetic.holds v, steps.trans (step_ifFalse at_ target value), agrees.names_eq,
    trivial,
    ?_, rfl⟩
  simp [Tree.holds?, meaning]

theorem EmitsValue.chooses_ifTrue (h : EmitsValue e c x code c')
    (placed : listing.Placed start code) (end_ : here = start + code.length)
    (at_ : listing[here]? = some (.ifTrue x l)) (target : listing.position? l = some there) :
    Chooses arithmetic listing anyState start (e.holds? arithmetic) there (here + 1) := by
  intro s hs _
  obtain ⟨s', v, steps, index, agrees, value, meaning⟩ :=
    h.steps arithmetic placed s hs
  obtain rfl : s'.index = here := by omega
  refine ⟨_, _, arithmetic.holds v, steps.trans (step_ifTrue at_ target value), agrees.names_eq,
    trivial,
    ?_, rfl⟩
  simp [Tree.holds?, meaning]

/-- The test of an arm reads the value it compares with from where it was computed. -/
theorem EmitsValue.chooses_arm {y : Operand} {v : V} (h : EmitsValue e c x code c')
    (placed : listing.Placed start code) (end_ : here = start + code.length)
    (compare : listing[here]? = some (.binary .eq y x c'.temporary))
    (branch : listing[here + 1]? = some (.ifFalse (.temporary c'.temporary) l))
    (target : listing.position? l = some there) (below : y.Below c.temporaries) :
    Chooses arithmetic listing (fun s => s.value? y = some v) start (e.fits? arithmetic v)
      (here + 2) there := by
  intro s hs value₁
  obtain ⟨s', w, steps, index, agrees, value₂, meaning⟩ :=
    h.steps arithmetic placed s hs
  obtain rfl : s'.index = here := by omega
  rw [← agrees.value?_eq below] at value₁
  obtain ⟨s'', compared, there₂, agrees', value₃⟩ :=
    steps_binary arithmetic compare value₁ value₂ h.temporaries_le
  rw [← there₂] at branch
  refine ⟨_, _, arithmetic.holds (arithmetic.apply .eq v w),
    (steps.trans compared).trans (step_ifFalse branch target value₃),
    agrees'.names_eq.trans agrees.names_eq, ?_, by simp [Tree.fits?, meaning], by rw [there₂]⟩
  rw [← value₁, ← agrees'.value?_eq below]
  rfl

end

/-! ## The layout of each kind of statement -/

theorem realizes_assign {p q : Location} {name : String} {l r : Option Tree} {e : Tree}
    {ss us : List Tree} {c c' : Counters} {x : Operand} {code : Listing} {i : Nat}
    (he : EmitsValue e c x code c') (placed : listing.Placed i code)
    (at_ : listing[i + code.length]? = some (.assign x name)) :
    Realizes arithmetic listing anyState i (i + code.length + 1)
      (Tree.Executes arithmetic
        ⟨.assign, p, some ⟨.identifier name, q, l, r, us⟩, some e, ss⟩) := by
  refine .of_steps fun s hs _ => ?_
  obtain ⟨s', v, steps, index, agrees, value, meaning⟩ :=
    he.steps arithmetic placed s hs
  rw [← index] at at_ ⊢
  refine ⟨_, _, steps.trans (step_assign at_ value), rfl, fun final completion => ?_⟩
  rw [Tree.executes_assign_iff, agrees.names_eq]
  simp [meaning]

theorem realizes_step {op : StepOp} {p q : Location} {name : String} {l r right : Option Tree}
    {ss us : List Tree} {t : Temporary} {i : Nat}
    (compute : listing[i]? =
      some (.binary op.arithmetic (.name name) (.name stepAmount) t))
    (store : listing[i + 1]? = some (.assign (.temporary t) name)) :
    Realizes arithmetic listing anyState i (i + 1 + 1)
      (Tree.Executes arithmetic
        ⟨.step op, p, some ⟨.identifier name, q, l, r, us⟩, right, ss⟩) := by
  refine .of_steps fun s hs _ => ?_
  subst hs
  obtain ⟨s', computed, index, agrees, value⟩ :=
    steps_binary arithmetic (n := 0) compute rfl rfl (Nat.zero_le _)
  rw [← index] at store ⊢
  refine ⟨_, _, computed.trans (step_assign store value), rfl, fun final completion => ?_⟩
  rw [Tree.executes_step_iff, agrees.names_eq]
  rfl

theorem realizes_returning {p : Location} {left : Option Tree} {e : Tree} {ss : List Tree}
    {c c' : Counters} {x : Operand} {code : Listing} {i stop : Nat}
    (he : EmitsValue e c x code c') (placed : listing.Placed i code)
    (at_ : listing[i + code.length]? = some (.returning x)) :
    Realizes arithmetic listing anyState i stop
      (Tree.Executes arithmetic ⟨.returning, p, left, some e, ss⟩) := by
  refine .of_return fun s hs _ => ?_
  obtain ⟨s', v, steps, index, agrees, value, meaning⟩ :=
    he.steps arithmetic placed s hs
  rw [← index] at at_
  refine ⟨_, s', v, steps, step?_returning at_ value, fun final completion => ?_⟩
  rw [Tree.executes_returning_iff, agrees.names_eq]
  simp [meaning]

theorem EmitsValue.exists_value {e : Tree} {c c' : Counters} {x : Operand} {code : Listing}
    (h : EmitsValue e c x code c') (names : Valuation V) :
    ∃ v, e.value? arithmetic names = some v := by
  induction h with
  | number => exact ⟨_, by rw [Tree.value?]⟩
  | identifier => exact ⟨_, by rw [Tree.value?]⟩
  | binary _ _ ihLeft ihRight =>
    obtain ⟨v, hv⟩ := ihLeft
    obtain ⟨w, hw⟩ := ihRight
    exact ⟨_, by simp [Tree.value?, hv, hw]; rfl⟩

theorem realizes_expression {t : Tree} {c c' : Counters} {x : Operand} {code : Listing} {i : Nat}
    (h : EmitsValue t c x code c') (placed : listing.Placed i code) :
    Realizes arithmetic listing anyState i (i + code.length) (t.Executes arithmetic) := by
  rw [Tree.executes_expression arithmetic h.exists_value]
  refine .of_steps fun s hs _ => ?_
  obtain ⟨s', v, steps, index, agrees, -, -⟩ := h.steps arithmetic placed s hs
  refine ⟨_, s', steps, index, fun final completion => ?_⟩
  rw [agrees.names_eq]
  rfl

theorem realizes_ifThen (once : ∀ l, listing.definitions l ≤ 1) {p : Location} {test body : Tree}
    {others : List Tree} {c c' : Counters} {x : Operand} {code : Listing} {other done : Label}
    {i k stop : Nat}
    (htest : EmitsValue test c x code c') (placed : listing.Placed i code)
    (branch : listing[i + code.length]? = some (.ifFalse x other))
    (thenPart : Realizes arithmetic listing anyState (i + code.length + 1) k
      (body.Executes arithmetic))
    (jump : listing[k]? = some (.goto done)) (mark : listing[k + 1]? = some (.label other))
    (elsePart : Realizes arithmetic listing anyState (k + 1 + 1) stop
      (Tree.ExecutesSlot arithmetic (Tree.elseBody? others)))
    (markDone : listing[stop]? = some (.label done)) :
    Realizes arithmetic listing anyState i (stop + 1)
      (Tree.Executes arithmetic ⟨.ifThen, p, some test, some body, others⟩) := by
  rw [Tree.executes_ifThen]
  have toOther := Listing.position?_eq_some (once other) mark
  have toDone := Listing.position?_eq_some (once done) markDone
  refine .choose (htest.chooses_ifFalse placed rfl branch toOther) ?_ ?_
  · exact (thenPart.followed (passes_goto jump toDone)).followed (passes_label markDone)
  · exact ((passes_label mark).followed (fun _ _ => trivial) elsePart).followed
      (passes_label markDone)

theorem realizes_loop (once : ∀ l, listing.definitions l ≤ 1) {test body : Tree}
    {advance : Option Tree} {c c' : Counters} {x : Operand} {code : Listing} {back done : Label}
    {i k m : Nat} (mark : listing[i]? = some (.label back))
    (htest : EmitsValue test c x code c') (placed : listing.Placed (i + 1) code)
    (branch : listing[i + 1 + code.length]? = some (.ifFalse x done))
    (bodyPart : Realizes arithmetic listing anyState (i + 1 + code.length + 1) k
      (body.Executes arithmetic))
    (advancePart : Realizes arithmetic listing anyState k m (Tree.ExecutesSlot arithmetic advance))
    (jump : listing[m]? = some (.goto back)) (markDone : listing[m + 1]? = some (.label done)) :
    Realizes arithmetic listing anyState i (m + 1 + 1)
      (Tree.Repeats arithmetic test body advance) := by
  have toStart := Listing.position?_eq_some (once back) mark
  have toDone := Listing.position?_eq_some (once done) markDone
  refine (passes_label mark).followed (fun _ _ => trivial) ?_
  refine .loop ?_ ?_ (htest.chooses_ifFalse placed rfl branch toDone)
    (bodyPart.andThen advancePart) ((passes_goto jump toStart).trans (passes_label mark))
    (passes_label markDone)
  · rw [andThen_assoc]
    exact Tree.repeats_eq arithmetic test body advance
  · intro R closed
    simp only [andThen_assoc] at closed
    exact Tree.repeats_least arithmetic closed

theorem realizes_doLoop (once : ∀ l, listing.definitions l ≤ 1) {p : Location} {test body : Tree}
    {ss : List Tree} {c c' : Counters} {x : Operand} {code : Listing} {back : Label} {i k : Nat}
    (mark : listing[i]? = some (.label back))
    (bodyPart : Realizes arithmetic listing anyState (i + 1) k (body.Executes arithmetic))
    (htest : EmitsValue test c x code c') (placed : listing.Placed k code)
    (branch : listing[k + code.length]? = some (.ifTrue x back)) :
    Realizes arithmetic listing anyState i (k + code.length + 1)
      (Tree.Executes arithmetic ⟨.doLoop, p, some test, some body, ss⟩) := by
  have toStart := Listing.position?_eq_some (once back) mark
  refine .loopBack (Tree.executes_doLoop arithmetic p test body ss) ?_
    ((passes_label mark).followed (fun _ _ => trivial) bodyPart)
    (htest.chooses_ifTrue placed rfl branch toStart)
  intro R closed names final completion run
  exact Tree.doLoop_least arithmetic closed run rfl

theorem realizes_switch {p : Location} {e : Tree} {right : Option Tree} {ts : List Tree}
    {c c' : Counters} {x : Operand} {code : Listing} {done : Label} {i stop : Nat}
    (he : EmitsValue e c x code c') (placed : listing.Placed i code)
    (arms : ∀ v : V, Realizes arithmetic listing (fun s => s.value? x = some v) (i + code.length)
      stop (Tree.ExecutesArms arithmetic v ts))
    (mark : listing[stop]? = some (.label done)) :
    Realizes arithmetic listing anyState i (stop + 1)
      (Tree.Executes arithmetic ⟨.switch, p, some e, right, ts⟩) := by
  refine .after_steps fun s hs _ => ?_
  obtain ⟨s', v, steps, index, agrees, value, meaning⟩ :=
    he.steps arithmetic placed s hs
  refine ⟨_, s', _, _, steps, value, index ▸ (arms v).followed (passes_label mark), ?_⟩
  funext final completion
  rw [Tree.executes_switch_iff, agrees.names_eq]
  simp [meaning]

theorem realizes_caseArm (once : ∀ l, listing.definitions l ≤ 1) {p : Location} {e body : Tree}
    {ss others : List Tree} {c c' : Counters} {x y : Operand} {v : V} {code : Listing}
    {other done : Label} {i k stop : Nat}
    (he : EmitsValue e c x code c') (placed : listing.Placed i code)
    (below : y.Below c.temporaries)
    (compare : listing[i + code.length]? = some (.binary .eq y x c'.temporary))
    (branch : listing[i + code.length + 1]? = some (.ifFalse (.temporary c'.temporary) other))
    (bodyPart : Realizes arithmetic listing anyState (i + code.length + 1 + 1) k
      (body.Executes arithmetic))
    (jump : listing[k]? = some (.goto done)) (mark : listing[k + 1]? = some (.label other))
    (otherArms : Realizes arithmetic listing (fun s => s.value? y = some v) (k + 1 + 1) stop
      (Tree.ExecutesArms arithmetic v others))
    (toDone : listing.position? done = some stop) :
    Realizes arithmetic listing (fun s => s.value? y = some v) i stop
      (Tree.ExecutesArms arithmetic v (⟨.caseArm, p, some e, some body, ss⟩ :: others)) := by
  rw [Tree.executesArms_caseArm]
  have toOther := Listing.position?_eq_some (once other) mark
  refine .choose (he.chooses_arm placed rfl compare branch toOther below) ?_ ?_
  · exact (bodyPart.followed (passes_goto jump toDone)).of_anyState
  · exact (passes_label mark).followed (fun _ value => value) otherArms

theorem realizes_defaultArm {p : Location} {left : Option Tree} {body : Tree}
    {ss others : List Tree} {given : State V → Prop} {v : V} {done : Label} {i k stop : Nat}
    (bodyPart : Realizes arithmetic listing anyState i k (body.Executes arithmetic))
    (jump : listing[k]? = some (.goto done)) (toDone : listing.position? done = some stop) :
    Realizes arithmetic listing given i stop
      (Tree.ExecutesArms arithmetic v (⟨.defaultArm, p, left, some body, ss⟩ :: others)) := by
  rw [Tree.executesArms_defaultArm]
  exact (bodyPart.followed (passes_goto jump toDone)).of_anyState

/-! ## All pieces -/

/-- Between the two indices the machine does what the piece says.  An arm is asked so only
where the value to compare with is at hand, and where the label that its body jumps to
stands behind all arms. -/
def Simulates (arithmetic : Arithmetic V) (listing : Listing) (c : Counters) (start stop : Nat) :
    Piece → Prop
  | .statement t => Realizes arithmetic listing anyState start stop (t.Executes arithmetic)
  | .slot t => Realizes arithmetic listing anyState start stop (Tree.ExecutesSlot arithmetic t)
  | .statements ts =>
    Realizes arithmetic listing anyState start stop (Tree.ExecutesAll arithmetic ts)
  | .loop test body advance =>
    Realizes arithmetic listing anyState start stop (Tree.Repeats arithmetic test body advance)
  | .arms value _ ts drawn =>
    ∀ v : V, value.Below c.temporaries →
      (∀ l, drawn = some l → listing.position? l = some stop) →
      Realizes arithmetic listing (fun s => s.value? value = some v) start stop
        (Tree.ExecutesArms arithmetic v ts)

theorem simulates_of_emits (once : ∀ l, listing.definitions l ≤ 1) {piece : Piece}
    {c c' : Counters} {code : Listing} (h : Emits piece c code c') {i : Nat}
    (placed : listing.Placed i code) :
    Simulates arithmetic listing c i (i + code.length) piece := by
  induction h generalizing i with
  | assign he =>
    obtain ⟨placed, at_, -⟩ := Listing.placed_append.mp placed
    exact (realizes_assign he placed at_).congr_stop (by simp [Nat.add_assoc])
  | step =>
    obtain ⟨compute, store, -⟩ := placed
    exact realizes_step compute store
  | returning he =>
    obtain ⟨placed, at_, -⟩ := Listing.placed_append.mp placed
    exact realizes_returning he placed at_
  | ifThen _ htest _ _ ihBody ihOther =>
    simp only [List.append_assoc, List.cons_append, Listing.placed_append, Listing.placed_cons]
      at placed
    obtain ⟨placed, branch, body, jump, mark, other, markDone, -⟩ := placed
    refine (realizes_ifThen once htest placed branch (ihBody body) jump mark (ihOther other)
      markDone).congr_stop ?_
    simp only [List.length_append, List.length_cons, List.length_nil]
    omega
  | whileLoop _ ih =>
    rw [Simulates, Tree.executes_whileLoop]
    exact ih placed
  | forLoop _ _ ihFirst ihLoop =>
    obtain ⟨first, behind⟩ := Listing.placed_append.mp placed
    rw [Simulates, Tree.executes_forLoop]
    refine ((ihFirst first).andThen (ihLoop behind)).congr_stop ?_
    rw [List.length_append, Nat.add_assoc]
  | doLoop _ htest ihBody =>
    simp only [List.append_assoc, List.cons_append, Listing.placed_append, Listing.placed_cons]
      at placed
    obtain ⟨mark, body, placed, branch, -⟩ := placed
    refine (realizes_doLoop once mark (ihBody body) htest placed branch).congr_stop ?_
    simp only [List.length_append, List.length_cons, List.length_nil]
    omega
  | switch he _ ihArms =>
    simp only [List.append_assoc, Listing.placed_append, Listing.placed_cons] at placed
    obtain ⟨placed, arms, mark, -⟩ := placed
    refine (realizes_switch he placed
      (fun v => ihArms arms v he.result_below ?_) mark).congr_stop ?_
    · rintro l rfl
      exact Listing.position?_eq_some (once l) mark
    · simp only [List.length_append, List.length_cons, List.length_nil]
      omega
  | row kind _ _ ihLeft ihRight =>
    obtain ⟨left, right⟩ := Listing.placed_append.mp placed
    rw [Simulates, Tree.executes_row arithmetic kind]
    refine ((ihLeft left).andThen (ihRight right)).congr_stop ?_
    rw [List.length_append, Nat.add_assoc]
  | block _ ih =>
    rw [Simulates, Tree.executes_block]
    exact ih placed
  | empty =>
    rw [Simulates, Tree.executes_empty]
    exact (Passes.refl i).realizes_skip
  | expression he => exact realizes_expression he placed
  | noSlot =>
    rw [Simulates, Tree.executesSlot_none]
    exact (Passes.refl i).realizes_skip
  | slot _ ih =>
    rw [Simulates, Tree.executesSlot_some]
    exact ih placed
  | noStatements =>
    rw [Simulates, Tree.executesAll_nil]
    exact (Passes.refl i).realizes_skip
  | statements _ _ ihFirst ihOthers =>
    obtain ⟨first, others⟩ := Listing.placed_append.mp placed
    rw [Simulates, Tree.executesAll_cons]
    refine ((ihFirst first).andThen (ihOthers others)).congr_stop ?_
    rw [List.length_append, Nat.add_assoc]
  | loop htest _ _ ihBody ihAdvance =>
    simp only [List.append_assoc, List.cons_append, Listing.placed_append, Listing.placed_cons]
      at placed
    obtain ⟨mark, placed, branch, body, advance, jump, markDone, -⟩ := placed
    refine (realizes_loop once mark htest placed branch (ihBody body) (ihAdvance advance) jump
      markDone).congr_stop ?_
    simp only [List.length_append, List.length_cons, List.length_nil]
    omega
  | noArms =>
    intro v _ _
    rw [Tree.executesArms_nil]
    exact (Passes.refl i).realizes_skip
  | @caseArm y constant done _ _ _ _ _ _ c c₁ c₂ _ code₁ code₂ code₃ he hbody hothers
      ihBody ihOthers =>
    intro v below toDone
    simp only [List.append_assoc, List.cons_append, Listing.placed_append, Listing.placed_cons]
      at placed
    obtain ⟨placed, compare, branch, body, jump, mark, others⟩ := placed
    have monotone : c.temporaries ≤ (c₂.drawBehind done).temporaries := by
      rw [temporaries_drawBehind]
      exact Nat.le_trans (Nat.le_succ_of_le he.temporaries_le) (temporaries_le_of_emits hbody)
    have stop_eq : i + code₁.length + 1 + 1 + code₂.length + 1 + 1 + code₃.length =
        i + (code₁ ++ .binary .eq y constant c₁.temporary ::
          .ifFalse (.temporary c₁.temporary) c₁.label :: code₂ ++
          .goto (c₂.behind done) :: .label c₁.label :: code₃).length := by
      simp only [List.length_append, List.length_cons]
      omega
    rw [← stop_eq] at toDone ⊢
    exact realizes_caseArm once he placed below compare branch (ihBody body) jump mark
      (ihOthers others v (below.mono monotone) toDone) (toDone _ (drawn_eq_of_emits hothers rfl))
  | defaultArm _ hothers ihBody ihOthers =>
    intro v _ toDone
    simp only [Listing.placed_append, Listing.placed_cons] at placed
    obtain ⟨body, jump, -⟩ := placed
    exact realizes_defaultArm (ihBody body) jump (toDone _ (drawn_eq_of_emits hothers rfl))

end Lowering

/-- The listing of a program realizes what the program does. -/
theorem realizes_of_lower {t : Tree} (h : lower t = .ok listing) :
    Realizes arithmetic listing anyState 0 listing.length (t.Executes arithmetic) := by
  obtain ⟨c, emitted⟩ := lower_eq_ok_iff.mp h
  have run : Lowering.Simulates arithmetic listing .zero 0 (0 + listing.length) (.statement t) :=
    Lowering.simulates_of_emits (Lowering.definitions_le_one emitted) emitted listing.placed_zero
  rwa [Nat.zero_add] at run

end Quadrupler
