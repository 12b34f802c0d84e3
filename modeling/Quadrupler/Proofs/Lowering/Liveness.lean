import Quadrupler.Proofs.Lowering.Numbering
import Quadrupler.Proofs.Quadruple.Liveness
set_option autoImplicit false

/-!
# Temporaries are assigned on every path

The code of an expression awaits none of the temporaries that are drawn for it, and the
statement it belongs to reads no others.  Only the arms of a switch read a temporary from
before: the value they compare with, which stays awaited from one test to the next but not
inside their bodies.  So the code of a tree awaits nothing when it starts, and every path
through it assigns a temporary before reading it.
-/

namespace Quadrupler

variable {listing : Listing}

namespace Lowering

/-! ## Expressions -/

theorem EmitsValue.drawn_of_temporary {e : Tree} {c c' : Counters} {x : Operand} {code : Listing}
    (h : EmitsValue e c x code c') {t : Temporary} (value : x = .temporary t) :
    c.temporaries ≤ t.index ∧ t.index < c'.temporaries := by
  cases h with
  | number => cases value
  | identifier => cases value
  | binary hleft hright =>
    cases value
    exact ⟨Nat.le_trans hleft.temporaries_le hright.temporaries_le, Nat.lt_succ_self _⟩

/-- What is awaited before an expression is awaited behind it and is none of the temporaries
drawn for it. -/
theorem EmitsValue.awaits {e : Tree} {c c' : Counters} {x : Operand} {code : Listing}
    (h : EmitsValue e c x code c') {i n : Nat} {t : Temporary} (placed : listing.Placed i code)
    (awaited : listing.Awaits t n i) :
    listing.Awaits t n (i + code.length) ∧
      ¬(c.temporaries ≤ t.index ∧ t.index < c'.temporaries) := by
  induction h generalizing i with
  | number => exact ⟨awaited, by omega⟩
  | identifier => exact ⟨awaited, by omega⟩
  | @binary op p left right ss c c₁ c₂ first second code₁ code₂ hleft hright ihLeft ihRight =>
    simp only [Listing.placed_append, Listing.placed_cons, List.length_append] at placed
    obtain ⟨⟨placed₁, placed₂⟩, at_, -⟩ := placed
    obtain ⟨behind₁, fresh₁⟩ := ihLeft placed₁ awaited
    obtain ⟨behind₂, fresh₂⟩ := ihRight placed₂ behind₁
    rw [Nat.add_assoc] at behind₂
    have unread₁ : first ≠ .temporary t := fun same => fresh₁ (hleft.drawn_of_temporary same)
    have unread₂ : second ≠ .temporary t := fun same => fresh₂ (hright.drawn_of_temporary same)
    obtain ⟨differs, behind⟩ := behind₂.after_binary at_ unread₁ unread₂
    refine ⟨?_, ?_⟩
    · simpa [Nat.add_assoc] using behind
    · have last : t.index ≠ c₂.temporaries := fun same => differs (congrArg Temporary.mk same)
      have drawn : c₂.drawTemporary.temporaries = c₂.temporaries + 1 := rfl
      omega

/-- What is awaited before an expression is not its value. -/
theorem EmitsValue.awaits_ne {e : Tree} {c c' : Counters} {x : Operand} {code : Listing}
    (h : EmitsValue e c x code c') {i n : Nat} {t : Temporary} (placed : listing.Placed i code)
    (awaited : listing.Awaits t n i) :
    listing.Awaits t n (i + code.length) ∧ x ≠ .temporary t := by
  obtain ⟨behind, fresh⟩ := h.awaits placed awaited
  exact ⟨behind, fun same => fresh (h.drawn_of_temporary same)⟩

/-! ## The layout of each kind of statement -/

section

variable {e : Tree} {c c' : Counters} {x : Operand} {code : Listing} {i k stop : Nat}

theorem defers_assign {name : String} (he : EmitsValue e c x code c')
    (placed : listing.Placed i code) (at_ : listing[i + code.length]? = some (.assign x name)) :
    listing.Defers .absent i (i + code.length + 1) := by
  intro t n _ awaited
  obtain ⟨behind, unread⟩ := he.awaits_ne placed awaited
  exact behind.after_assign at_ unread

theorem defers_step {op : BinaryOp} {name amount : String} {u : Temporary}
    (compute : listing[i]? = some (.binary op (.name name) (.name amount) u))
    (store : listing[i + 1]? = some (.assign (.temporary u) name)) :
    listing.Defers .absent i (i + 1 + 1) := by
  intro t n _ awaited
  obtain ⟨differs, behind⟩ := awaited.after_binary compute nofun nofun
  refine behind.after_assign store ?_
  intro same
  exact differs (Operand.temporary.inj same).symm

theorem defers_returning (he : EmitsValue e c x code c') (placed : listing.Placed i code)
    (at_ : listing[i + code.length]? = some (.returning x)) :
    listing.Defers .absent i stop := by
  intro t n _ awaited
  obtain ⟨behind, unread⟩ := he.awaits_ne placed awaited
  exact absurd behind (Listing.not_awaits_returning at_ unread)

theorem defers_ifThen (once : ∀ l, listing.definitions l ≤ 1) {other done : Label}
    (htest : EmitsValue e c x code c') (placed : listing.Placed i code)
    (branch : listing[i + code.length]? = some (.ifFalse x other))
    (thenPart : listing.Defers .absent (i + code.length + 1) k)
    (jump : listing[k]? = some (.goto done)) (mark : listing[k + 1]? = some (.label other))
    (elsePart : listing.Defers .absent (k + 1 + 1) stop)
    (markDone : listing[stop]? = some (.label done)) :
    listing.Defers .absent i (stop + 1) := by
  have toOther := Listing.position?_eq_some (once other) mark
  have toDone := Listing.position?_eq_some (once done) markDone
  intro t n _ awaited
  obtain ⟨tested, unread⟩ := htest.awaits_ne placed awaited
  have joined : listing.Awaits t n stop := by
    rcases tested.after_test branch (.inl rfl) unread toOther with holds | fails
    · exact (thenPart t n nofun holds).after_goto jump toDone
    · exact elsePart t n nofun (fails.after_label mark)
  exact joined.after_label markDone

theorem defers_testFirst (once : ∀ l, listing.definitions l ≤ 1) {back done : Label}
    (mark : listing[i]? = some (.label back)) (htest : EmitsValue e c x code c')
    (placed : listing.Placed (i + 1) code)
    (branch : listing[i + 1 + code.length]? = some (.ifFalse x done))
    (body : listing.Defers .absent (i + 1 + code.length + 1) k)
    (jump : listing[k]? = some (.goto back)) (markDone : listing[k + 1]? = some (.label done)) :
    listing.Defers .absent i (k + 1 + 1) := by
  have toStart := Listing.position?_eq_some (once back) mark
  have toDone := Listing.position?_eq_some (once done) markDone
  refine Listing.defers_loop mark fun t n _ inside => ?_
  obtain ⟨tested, unread⟩ := htest.awaits_ne placed inside
  rcases tested.after_test branch (.inl rfl) unread toDone with holds | fails
  · exact .inl ((body t n nofun holds).after_goto jump toStart)
  · exact .inr (fails.after_label markDone)

theorem defers_testLast (once : ∀ l, listing.definitions l ≤ 1) {back : Label}
    (mark : listing[i]? = some (.label back)) (body : listing.Defers .absent (i + 1) k)
    (htest : EmitsValue e c x code c') (placed : listing.Placed k code)
    (branch : listing[k + code.length]? = some (.ifTrue x back)) :
    listing.Defers .absent i (k + code.length + 1) := by
  have toStart := Listing.position?_eq_some (once back) mark
  refine Listing.defers_loop mark fun t n _ inside => ?_
  obtain ⟨tested, unread⟩ := htest.awaits_ne placed (body t n nofun inside)
  exact (tested.after_test branch (.inr rfl) unread toStart).symm

/-- The value that the arms compare with is drawn for the discriminant. -/
theorem defers_switch {done : Label} (he : EmitsValue e c x code c')
    (placed : listing.Placed i code) (arms : listing.Defers x (i + code.length) stop)
    (mark : listing[stop]? = some (.label done)) : listing.Defers .absent i (stop + 1) := by
  intro t n _ awaited
  obtain ⟨computed, other⟩ := he.awaits_ne placed awaited
  exact (arms t n other computed).after_label mark

/-- The value that the arms compare with is read by the test and not in the body. -/
theorem defers_caseArm (once : ∀ l, listing.definitions l ≤ 1) {y : Operand} {u : Temporary}
    {next done : Label} (he : EmitsValue e c x code c') (placed : listing.Placed i code)
    (compare : listing[i + code.length]? = some (.binary .eq y x u))
    (branch : listing[i + code.length + 1]? = some (.ifFalse (.temporary u) next))
    (body : listing.Defers .absent (i + code.length + 1 + 1) k)
    (jump : listing[k]? = some (.goto done)) (mark : listing[k + 1]? = some (.label next))
    (others : listing.Defers y (k + 1 + 1) stop) (toDone : listing.position? done = some stop) :
    listing.Defers y i stop := by
  have toNext := Listing.position?_eq_some (once next) mark
  intro t n other awaited
  obtain ⟨computed, unread⟩ := he.awaits_ne placed awaited
  obtain ⟨differs, compared⟩ := computed.after_binary compare other unread
  have untested : Operand.temporary u ≠ .temporary t := by
    intro same
    exact differs (Operand.temporary.inj same).symm
  rcases compared.after_test branch (.inl rfl) untested toNext with holds | fails
  · exact (body t n nofun holds).after_goto jump toDone
  · exact others t n other (fails.after_label mark)

theorem defers_defaultArm {y : Operand} {done : Label} (body : listing.Defers .absent i k)
    (jump : listing[k]? = some (.goto done)) (toDone : listing.position? done = some stop) :
    listing.Defers y i stop := by
  intro t n _ awaited
  exact (body t n nofun awaited).after_goto jump toDone

end

/-! ## All pieces -/

/-- The code of the piece assigns whatever it reads.  Arms are asked so of all but the value
they compare with, and where the label that their bodies jump to stands behind them. -/
def Supplies (listing : Listing) (start stop : Nat) : Piece → Prop
  | .arms value _ _ drawn =>
    (∀ l, drawn = some l → listing.position? l = some stop) → listing.Defers value start stop
  | .statement _ | .slot _ | .statements _ | .loop _ _ _ => listing.Defers .absent start stop

theorem supplies_of_emits (once : ∀ l, listing.definitions l ≤ 1) {piece : Piece}
    {c c' : Counters} {code : Listing} (h : Emits piece c code c') {i : Nat}
    (placed : listing.Placed i code) : Supplies listing i (i + code.length) piece := by
  induction h generalizing i with
  | assign he =>
    obtain ⟨placed, at_, -⟩ := Listing.placed_append.mp placed
    exact (defers_assign he placed at_).congr_stop (by simp [Nat.add_assoc])
  | step =>
    obtain ⟨compute, store, -⟩ := placed
    exact defers_step compute store
  | returning he =>
    obtain ⟨placed, at_, -⟩ := Listing.placed_append.mp placed
    exact defers_returning he placed at_
  | ifThen _ htest _ _ ihBody ihOther =>
    simp only [List.append_assoc, List.cons_append, Listing.placed_append, Listing.placed_cons]
      at placed
    obtain ⟨placed, branch, body, jump, mark, other, markDone, -⟩ := placed
    refine (defers_ifThen once htest placed branch (ihBody body) jump mark (ihOther other)
      markDone).congr_stop ?_
    simp only [List.length_append, List.length_cons, List.length_nil]
    omega
  | whileLoop _ ih => exact ih placed
  | forLoop _ _ ihFirst ihLoop =>
    obtain ⟨first, behind⟩ := Listing.placed_append.mp placed
    exact Listing.Defers.append (ihFirst first) (ihLoop behind)
  | doLoop _ htest ihBody =>
    simp only [List.append_assoc, List.cons_append, Listing.placed_append, Listing.placed_cons]
      at placed
    obtain ⟨mark, body, placed, branch, -⟩ := placed
    refine (defers_testLast once mark (ihBody body) htest placed branch).congr_stop ?_
    simp only [List.length_append, List.length_cons, List.length_nil]
    omega
  | switch he _ ihArms =>
    simp only [List.append_assoc, Listing.placed_append, Listing.placed_cons] at placed
    obtain ⟨placed, arms, mark, -⟩ := placed
    refine (defers_switch he placed (ihArms arms ?_) mark).congr_stop ?_
    · rintro l rfl
      exact Listing.position?_eq_some (once l) mark
    · simp only [List.length_append, List.length_cons, List.length_nil]
      omega
  | row _ _ _ ihLeft ihRight =>
    obtain ⟨left, right⟩ := Listing.placed_append.mp placed
    exact Listing.Defers.append (ihLeft left) (ihRight right)
  | block _ ih => exact ih placed
  | empty => exact .refl listing .absent i
  | expression he => exact fun t n _ awaited => (he.awaits placed awaited).1
  | noSlot => exact .refl listing .absent i
  | slot _ ih => exact ih placed
  | noStatements => exact .refl listing .absent i
  | statements _ _ ihFirst ihOthers =>
    obtain ⟨first, others⟩ := Listing.placed_append.mp placed
    exact Listing.Defers.append (ihFirst first) (ihOthers others)
  | loop htest _ _ ihBody ihAdvance =>
    simp only [List.append_assoc, List.cons_append, Listing.placed_append, Listing.placed_cons]
      at placed
    obtain ⟨mark, placed, branch, body, advance, jump, markDone, -⟩ := placed
    refine (defers_testFirst once mark htest placed branch
      (.trans (ihBody body) (ihAdvance advance)) jump markDone).congr_stop ?_
    simp only [List.length_append, List.length_cons, List.length_nil]
    omega
  | @noArms value _ _ => exact fun _ => .refl listing value i
  | @caseArm y constant done _ _ _ _ _ _ c c₁ c₂ _ code₁ code₂ code₃ he _ hothers
      ihBody ihOthers =>
    intro toDone
    simp only [List.append_assoc, List.cons_append, Listing.placed_append, Listing.placed_cons]
      at placed
    obtain ⟨placed, compare, branch, body, jump, mark, others⟩ := placed
    have stop_eq : i + code₁.length + 1 + 1 + code₂.length + 1 + 1 + code₃.length =
        i + (code₁ ++ .binary .eq y constant c₁.temporary ::
          .ifFalse (.temporary c₁.temporary) c₁.label :: code₂ ++
          .goto (c₂.behind done) :: .label c₁.label :: code₃).length := by
      simp only [List.length_append, List.length_cons]
      omega
    rw [← stop_eq] at toDone ⊢
    exact defers_caseArm once he placed compare branch (ihBody body) jump mark
      (ihOthers others toDone) (toDone _ (drawn_eq_of_emits hothers rfl))
  | defaultArm _ hothers ihBody ihOthers =>
    intro toDone
    simp only [Listing.placed_append, Listing.placed_cons] at placed
    obtain ⟨body, jump, -⟩ := placed
    exact defers_defaultArm (ihBody body) jump (toDone _ (drawn_eq_of_emits hothers rfl))

end Lowering

/-! ## Each temporary is assigned once -/

/-- Only the temporary drawn there is assigned. -/
theorem Quadruple.Continues.writes?_eq {q : Quadruple} {c c' : Counters} {t : Temporary}
    (h : q.Continues c c') (writes : q.writes? = some t) :
    t.index = c.temporaries ∧ c'.temporaries = c.temporaries + 1 := by
  cases h.2 with
  | nothing none _ => simp [none] at writes
  | label none _ => simp [none] at writes
  | temporary drawn _ =>
    obtain rfl : c.temporary = t := by simpa [drawn] using writes
    exact ⟨rfl, rfl⟩

namespace Listing.Numbered

theorem le_of_writes {code : Listing} {c c' : Counters} (h : Numbered c code c') {i : Nat}
    {q : Quadruple} {t : Temporary} (at_ : code[i]? = some q) (writes : q.writes? = some t) :
    c.temporaries ≤ t.index := by
  induction h generalizing i with
  | nil => simp at at_
  | cons continues _ ih =>
    cases i with
    | zero =>
      obtain rfl : _ = q := Option.some.inj at_
      exact Nat.le_of_eq (continues.writes?_eq writes).1.symm
    | succ i => exact Nat.le_trans continues.le.1 (ih at_)

/-- Two quadruples that assign the same temporary are one. -/
theorem index_eq_of_writes {code : Listing} {c c' : Counters} (h : Numbered c code c')
    {i j : Nat} {p q : Quadruple} {t : Temporary} (hp : code[i]? = some p)
    (hq : code[j]? = some q) (writes : p.writes? = some t) (writes' : q.writes? = some t) :
    i = j := by
  induction h generalizing i j with
  | nil => simp at hp
  | cons continues behind ih =>
    cases i with
    | zero =>
      cases j with
      | zero => rfl
      | succ j =>
        obtain rfl : _ = p := Option.some.inj hp
        have drawn := continues.writes?_eq writes
        have later := behind.le_of_writes hq writes'
        omega
    | succ i =>
      cases j with
      | zero =>
        obtain rfl : _ = q := Option.some.inj hq
        have drawn := continues.writes?_eq writes'
        have later := behind.le_of_writes hp writes
        omega
      | succ j => exact congrArg Nat.succ (ih hp hq)

end Listing.Numbered

theorem numbered_of_emits {tree : Tree} {c c' : Counters}
    (h : Lowering.Emits (.statement tree) c listing c') : Listing.Numbered c listing c' :=
  (Lowering.statement_numbers tree c).numbered (Lowering.statement_eq_ok_iff.mpr h)

/-! ## Listings -/

/-- The listing of a tree awaits nothing when it starts. -/
theorem not_awaits_of_emits {tree : Tree} {c c' : Counters}
    (h : Lowering.Emits (.statement tree) c listing c') (t : Temporary) (n : Nat) :
    ¬listing.Awaits t n 0 := by
  intro awaited
  have defers : listing.Defers .absent 0 (0 + listing.length) :=
    Lowering.supplies_of_emits (Lowering.definitions_le_one h) h listing.placed_zero
  have behind := defers t n nofun awaited
  rw [Nat.zero_add] at behind
  -- No quadruple stands behind the last one to read it.
  cases behind with
  | here at_ _ => simp at at_
  | later at_ _ _ _ => simp at at_

/-- Whatever path leads to a quadruple that reads a temporary, it has passed the assignment of
that temporary, and there is no other one in the listing. -/
theorem assigned_before_read (tree : Tree) (listing : Listing) (h : lower tree = .ok listing)
    (passed : List Nat) (index : Nat) (path : listing.Path passed index) (q : Quadruple)
    (at_ : listing[index]? = some q) (t : Temporary) (read : t ∈ q.reads) :
    ∃ writer ∈ passed,
      ∀ i, (∃ p, listing[i]? = some p ∧ p.writes? = some t) ↔ i = writer := by
  obtain ⟨c, emitted⟩ := lower_eq_ok_iff.mp h
  have awaited : listing.Awaits t 0 index := .here at_ read
  obtain ⟨writer, passes, p, hp, writes⟩ :=
    path.exists_assignment awaited (not_awaits_of_emits emitted t)
  refine ⟨writer, passes, fun i => ?_⟩
  constructor
  · rintro ⟨p', hp', writes'⟩
    exact (numbered_of_emits emitted).index_eq_of_writes hp' hp writes' writes
  · rintro rfl
    exact ⟨p, hp, writes⟩

/-- In a loop, the second arm of a switch reads the discriminant, which was computed before the
test of the first one; the path has jumped over the body in between. -/
theorem assigned_before_read_switch :
    let x : Tree := .identifier "x" ⟨1, 1⟩
    let one : Tree := .number "1" ⟨1, 1⟩
    let arm : Tree := { kind := .caseArm, location := ⟨1, 1⟩, left := some one,
                        right := some (.block [] ⟨1, 1⟩) }
    let tree : Tree :=
      { kind := .whileLoop, location := ⟨1, 1⟩, left := some x,
        right := some { kind := .switch, location := ⟨1, 1⟩,
                        left := some (.binary .add x one ⟨1, 1⟩), statements := [arm, arm] } }
    let listing : Listing :=
      [.label ⟨0⟩, .ifFalse (.name "x") ⟨1⟩, .binary .add (.name "x") (.name "1") ⟨0⟩,
       .binary .eq (.temporary ⟨0⟩) (.name "1") ⟨1⟩, .ifFalse (.temporary ⟨1⟩) ⟨2⟩, .goto ⟨3⟩,
       .label ⟨2⟩, .binary .eq (.temporary ⟨0⟩) (.name "1") ⟨2⟩, .ifFalse (.temporary ⟨2⟩) ⟨4⟩,
       .goto ⟨3⟩, .label ⟨4⟩, .label ⟨3⟩, .goto ⟨0⟩, .label ⟨1⟩]
    lower tree = .ok listing ∧ listing.Path [0, 1, 2, 3, 4, 6] 7 ∧
      ∃ writer ∈ [0, 1, 2, 3, 4, 6],
        ∀ i, (∃ p, listing[i]? = some p ∧ p.writes? = some ⟨0⟩) ↔ i = writer := by
  intro x one arm tree listing
  have lowered : lower tree = .ok listing := rfl
  have toSwitch : listing.Path [0, 1] 2 := .step (.step .start (by decide)) (by decide)
  have toTest : listing.Path [0, 1, 2, 3] 4 := .step (.step toSwitch (by decide)) (by decide)
  have path : listing.Path [0, 1, 2, 3, 4, 6] 7 := .step (.step toTest (by decide)) (by decide)
  exact ⟨lowered, path, assigned_before_read tree listing lowered _ 7 path _ rfl ⟨0⟩ (by decide)⟩

end Quadrupler
