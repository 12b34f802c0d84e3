import Quadrupler.Lowering.Generator
import Quadrupler.Proofs.Tree.Walk
import Quadrupler.Tree.Execution
set_option autoImplicit false

/-!
# The code of a tree

Lowering is a computation that may fail.  Its successes are described here by relations
between a tree, the counters before, the code, and the counters after, with one rule for
each kind of node.  `statement_eq_ok_iff` says that the relation and the computation
agree, so what holds of all code is proved by induction over the rules, and what is to be
lowered successfully only needs a derivation.
-/

namespace Quadrupler

namespace Counters

/-- The temporary that is drawn next. -/
def temporary (c : Counters) : Temporary := ⟨c.temporaries⟩

/-- The label that is drawn next. -/
def label (c : Counters) : Label := ⟨c.labels⟩

/-- The counters once a temporary has been drawn. -/
def drawTemporary (c : Counters) : Counters := ⟨c.temporaries + 1, c.labels⟩

/-- The counters once a label has been drawn. -/
def drawLabel (c : Counters) : Counters := ⟨c.temporaries, c.labels + 1⟩

@[simp] theorem label_drawTemporary (c : Counters) : c.drawTemporary.label = c.label := rfl

/-- The label behind a switch, which is drawn unless it has been already. -/
def behind (c : Counters) (done : Option Label) : Label := done.getD c.label

/-- The counters once the label behind a switch has been drawn. -/
def drawBehind (c : Counters) (done : Option Label) : Counters :=
  if done.isSome then c else c.drawLabel

end Counters

namespace Emit

variable {β : Type}

/-! ## Emitters that succeed -/

theorem bind_eq_ok_iff {α : Type} {x : Emit α} {f : α → Emit β} {c c' : Counters} {b : β}
    {code : Listing} :
    (x >>= f) c = ⟨.ok b, code, c'⟩ ↔
      ∃ a code₁ c₁ code₂, x c = ⟨.ok a, code₁, c₁⟩ ∧ f a c₁ = ⟨.ok b, code₂, c'⟩ ∧
        code = code₁ ++ code₂ := by
  constructor
  · intro h
    rcases hx : x c with ⟨_ | a, code₁, c₁⟩
    · rw [bind_error hx] at h
      simp at h
    · rw [bind_ok hx] at h
      rcases hf : f a c₁ with ⟨result, code₂, c₂⟩
      simp only [hf, Emission.mk.injEq] at h
      obtain ⟨rfl, rfl, rfl⟩ := h
      exact ⟨a, code₁, c₁, code₂, rfl, hf, rfl⟩
  · rintro ⟨a, code₁, c₁, code₂, hx, hf, rfl⟩
    rw [bind_ok hx, hf]

theorem emit_bind_eq_ok_iff {q : Quadruple} {f : Unit → Emit β} {c c' : Counters} {b : β}
    {code : Listing} :
    (emit q >>= f) c = ⟨.ok b, code, c'⟩ ↔
      ∃ code₁, f () c = ⟨.ok b, code₁, c'⟩ ∧ code = q :: code₁ := by
  rw [bind_eq_ok_iff]
  constructor
  · rintro ⟨⟨⟩, code₁, c₁, code₂, hq, hf, rfl⟩
    simp only [emit_apply, Emission.mk.injEq, true_and] at hq
    obtain ⟨rfl, rfl⟩ := hq
    exact ⟨code₂, hf, rfl⟩
  · rintro ⟨code₁, hf, rfl⟩
    exact ⟨(), [q], c, code₁, rfl, hf, rfl⟩

@[simp] theorem newLabel_bind (f : Label → Emit β) (c : Counters) :
    (newLabel >>= f) c = f c.label c.drawLabel :=
  bind_ok (newLabel_apply c) f

@[simp] theorem newTemporary_bind (f : Temporary → Emit β) (c : Counters) :
    (newTemporary >>= f) c = f c.temporary c.drawTemporary :=
  bind_ok (newTemporary_apply c) f

@[simp] theorem behind_bind (done : Option Label) (f : Label → Emit β) (c : Counters) :
    (Lowering.behind done >>= f) c = f (c.behind done) (c.drawBehind done) := by
  cases done with
  | none => exact newLabel_bind f c
  | some l => exact congrFun (pure_bind l f) c

end Emit

namespace Lowering

open Emit

/-! ## The rules -/

/-- The code of an expression, and the operand that holds its value afterwards. -/
inductive EmitsValue : Tree → Counters → Operand → Listing → Counters → Prop where
  | number {text : String} {p : Location} {left right : Option Tree} {ss : List Tree}
      {c : Counters} :
      EmitsValue ⟨.number text, p, left, right, ss⟩ c (.name text) [] c
  | identifier {name : String} {p : Location} {left right : Option Tree} {ss : List Tree}
      {c : Counters} :
      EmitsValue ⟨.identifier name, p, left, right, ss⟩ c (.name name) [] c
  | binary {op : BinaryOp} {p : Location} {left right : Tree} {ss : List Tree}
      {c c₁ c₂ : Counters} {first second : Operand} {code₁ code₂ : Listing} :
      EmitsValue left c first code₁ c₁ →
      EmitsValue right c₁ second code₂ c₂ →
      EmitsValue ⟨.binary op, p, some left, some right, ss⟩ c (.temporary c₂.temporary)
        (code₁ ++ code₂ ++ [.binary op first second c₂.temporary]) c₂.drawTemporary

/-- At most one `else`, which has its block. -/
inductive Companions : List Tree → Prop where
  | none : Companions []
  | one {p : Location} {left : Option Tree} {body : Tree} {ss : List Tree} :
      Companions [⟨.elseBranch, p, left, some body, ss⟩]

/-- What code is emitted for, expressions apart.  One relation over all pieces takes the
place of several that would have to be defined together. -/
inductive Piece where
  | statement (t : Tree)
  | slot (t : Option Tree)
  | statements (ts : List Tree)
  /-- a loop that tests first; what advances it stands behind its body -/
  | loop (test body : Tree) (advance : Option Tree)
  /-- arms that compare an operand, with the label behind the switch, as far as it has been
  drawn, before and after them -/
  | arms (value : Operand) (done : Option Label) (ts : List Tree) (drawn : Option Label)

/-- The code of a piece, and the counters before and after. -/
inductive Emits : Piece → Counters → Listing → Counters → Prop where
  | assign {p q : Location} {name : String} {l r : Option Tree} {e : Tree} {ss us : List Tree}
      {c c₁ : Counters} {value : Operand} {code : Listing} :
      EmitsValue e c value code c₁ →
      Emits (.statement ⟨.assign, p, some ⟨.identifier name, q, l, r, us⟩, some e, ss⟩) c
        (code ++ [.assign value name]) c₁
  | step {op : StepOp} {p q : Location} {name : String} {l r right : Option Tree}
      {ss us : List Tree} {c : Counters} :
      Emits (.statement ⟨.step op, p, some ⟨.identifier name, q, l, r, us⟩, right, ss⟩) c
        [.binary op.arithmetic (.name name) (.name stepAmount) c.temporary,
         .assign (.temporary c.temporary) name] c.drawTemporary
  | returning {p : Location} {left : Option Tree} {e : Tree} {ss : List Tree}
      {c c₁ : Counters} {value : Operand} {code : Listing} :
      EmitsValue e c value code c₁ →
      Emits (.statement ⟨.returning, p, left, some e, ss⟩) c (code ++ [.returning value]) c₁
  | ifThen {p : Location} {test body : Tree} {others : List Tree} {c c₁ c₂ c₃ : Counters}
      {value : Operand} {code₁ code₂ code₃ : Listing} :
      Companions others →
      EmitsValue test c value code₁ c₁ →
      Emits (.statement body) c₁.drawLabel code₂ c₂ →
      Emits (.slot (Tree.elseBody? others)) c₂.drawLabel code₃ c₃ →
      Emits (.statement ⟨.ifThen, p, some test, some body, others⟩) c
        (code₁ ++ .ifFalse value c₁.label :: code₂ ++
          .goto c₂.label :: .label c₁.label :: code₃ ++ [.label c₂.label]) c₃
  | whileLoop {p : Location} {test body : Tree} {ss : List Tree} {c c₁ : Counters}
      {code : Listing} :
      Emits (.loop test body none) c code c₁ →
      Emits (.statement ⟨.whileLoop, p, some test, some body, ss⟩) c code c₁
  | forLoop {p : Location} {test body first advance : Tree} {c c₁ c₂ : Counters}
      {code₁ code₂ : Listing} :
      Emits (.statement first) c code₁ c₁ →
      Emits (.loop test body (some advance)) c₁ code₂ c₂ →
      Emits (.statement ⟨.forLoop, p, some test, some body, [first, advance]⟩) c
        (code₁ ++ code₂) c₂
  | doLoop {p : Location} {test body : Tree} {ss : List Tree} {c c₁ c₂ : Counters}
      {value : Operand} {code₁ code₂ : Listing} :
      Emits (.statement body) c.drawLabel code₁ c₁ →
      EmitsValue test c₁ value code₂ c₂ →
      Emits (.statement ⟨.doLoop, p, some test, some body, ss⟩) c
        (.label c.label :: code₁ ++ code₂ ++ [.ifTrue value c.label]) c₂
  | switch {p : Location} {e : Tree} {right : Option Tree} {ts : List Tree}
      {c c₁ c₂ : Counters} {value : Operand} {drawn : Option Label} {code₁ code₂ : Listing} :
      EmitsValue e c value code₁ c₁ →
      Emits (.arms value none ts drawn) c₁ code₂ c₂ →
      Emits (.statement ⟨.switch, p, some e, right, ts⟩) c
        (code₁ ++ code₂ ++ [.label (c₂.behind drawn)]) (c₂.drawBehind drawn)
  | row {t : Tree} {c c₁ c₂ : Counters} {code₁ code₂ : Listing} :
      t.isSequence = true → Emits (.slot t.left) c code₁ c₁ → Emits (.slot t.right) c₁ code₂ c₂ →
      Emits (.statement t) c (code₁ ++ code₂) c₂
  | block {p : Location} {left right : Option Tree} {body : List Tree} {c c₁ : Counters}
      {code : Listing} :
      Emits (.statements body) c code c₁ →
      Emits (.statement ⟨.block, p, left, right, body⟩) c code c₁
  | empty {p : Location} {left right : Option Tree} {ss : List Tree} {c : Counters} :
      Emits (.statement ⟨.empty, p, left, right, ss⟩) c [] c
  | expression {t : Tree} {value : Operand} {c c₁ : Counters} {code : Listing} :
      EmitsValue t c value code c₁ → Emits (.statement t) c code c₁
  | noSlot {c : Counters} : Emits (.slot none) c [] c
  | slot {t : Tree} {c c₁ : Counters} {code : Listing} :
      Emits (.statement t) c code c₁ → Emits (.slot (some t)) c code c₁
  | noStatements {c : Counters} : Emits (.statements []) c [] c
  | statements {t : Tree} {ts : List Tree} {c c₁ c₂ : Counters} {code₁ code₂ : Listing} :
      Emits (.statement t) c code₁ c₁ → Emits (.statements ts) c₁ code₂ c₂ →
      Emits (.statements (t :: ts)) c (code₁ ++ code₂) c₂
  | loop {test body : Tree} {advance : Option Tree} {c c₁ c₂ c₃ : Counters} {value : Operand}
      {code₁ code₂ code₃ : Listing} :
      EmitsValue test c.drawLabel value code₁ c₁ →
      Emits (.statement body) c₁.drawLabel code₂ c₂ →
      Emits (.slot advance) c₂ code₃ c₃ →
      Emits (.loop test body advance) c
        (.label c.label :: code₁ ++ .ifFalse value c₁.label :: code₂ ++ code₃ ++
          [.goto c.label, .label c₁.label]) c₃
  | noArms {value : Operand} {done : Option Label} {c : Counters} :
      Emits (.arms value done [] done) c [] c
  | caseArm {value constant : Operand} {done drawn : Option Label} {p : Location} {e body : Tree}
      {ss others : List Tree} {c c₁ c₂ c₃ : Counters} {code₁ code₂ code₃ : Listing} :
      EmitsValue e c constant code₁ c₁ →
      Emits (.statement body) c₁.drawTemporary.drawLabel code₂ c₂ →
      Emits (.arms value (some (c₂.behind done)) others drawn) (c₂.drawBehind done) code₃ c₃ →
      Emits (.arms value done (⟨.caseArm, p, some e, some body, ss⟩ :: others) drawn) c
        (code₁ ++ .binary .eq value constant c₁.temporary ::
          .ifFalse (.temporary c₁.temporary) c₁.label :: code₂ ++
          .goto (c₂.behind done) :: .label c₁.label :: code₃) c₃
  | defaultArm {value : Operand} {done drawn : Option Label} {p : Location} {left : Option Tree}
      {body : Tree} {ss others : List Tree} {c c₁ c₂ : Counters} {code₁ code₂ : Listing} :
      Emits (.statement body) c code₁ c₁ →
      Emits (.arms value (some (c₁.behind done)) others drawn) (c₁.drawBehind done) code₂ c₂ →
      Emits (.arms value done (⟨.defaultArm, p, left, some body, ss⟩ :: others) drawn) c
        (code₁ ++ .goto (c₁.behind done) :: code₂) c₂

/-! ## Statements in a row -/

theorem statements_append (ts us : List Tree) :
    statements (ts ++ us) = statements ts >>= fun _ => statements us := by
  induction ts with
  | nil => rw [List.nil_append, statements, pure_bind]
  | cons t ts ih => rw [List.cons_append, statements, statements, ih, bind_assoc]

theorem statements_singleton (t : Tree) : statements [t] = statement t := by
  rw [statements, statements]
  exact bind_pure (statement t)

theorem statement_of_sequence {t : Tree} (h : t.isSequence = true) :
    statement t = slot t.left >>= fun _ => slot t.right := by
  obtain ⟨kind, p, left, right, ss⟩ := t
  cases kind
  case separator => rw [statement]
  case sequence => rw [statement]
  all_goals cases h

/-- Statements in a row are lowered one after the other. -/
theorem statement_eq_statements (t : Tree) : statement t = statements t.sequenceItems := by
  induction t using Tree.sequence_induction with
  | single t single => rw [Tree.sequenceItems_of_single single, statements_singleton]
  | sequence t sequence left right =>
    have side (child : Option Tree) (h : ∀ u ∈ child, statement u = statements u.sequenceItems) :
        slot child = statements (child.toList.flatMap Tree.sequenceItems) := by
      cases child with
      | none => rw [slot, Option.toList_none, List.flatMap_nil, statements]
      | some u => rw [slot, Option.toList_some, List.flatMap_singleton, h u rfl]
    rw [statement_of_sequence sequence, side t.left left, side t.right right,
      ← statements_append, ← Tree.sequenceItems_of_sequence sequence]

/-! ## Computation and rules agree -/

theorem target_eq_ok_iff {kind : Tree.Kind} {p : Location} {slot : Option Tree} {name : String}
    {c c₁ : Counters} {code : Listing} :
    target kind p slot c = ⟨.ok name, code, c₁⟩ ↔
      (∃ q l r ss, slot = some ⟨.identifier name, q, l, r, ss⟩) ∧ code = [] ∧ c₁ = c := by
  rcases slot with _ | ⟨kind', q, l, r, ss⟩
  · simp [target, missing]
  · cases kind' <;> simp [target, eq_comm]

theorem companions_eq_ok_iff {others : List Tree} {u : Unit} {c c₁ : Counters} {code : Listing} :
    companions others c = ⟨.ok u, code, c₁⟩ ↔ Companions others ∧ code = [] ∧ c₁ = c := by
  constructor
  · intro h
    rcases others with _ | ⟨⟨kind, p, left, right, ss⟩, others⟩
    · simp only [companions, pure_apply, Emission.mk.injEq, true_and] at h
      exact ⟨.none, h.1.symm, h.2.symm⟩
    · cases kind
      case elseBranch =>
        cases right with
        | none => simp [companions, missing] at h
        | some body =>
          cases others with
          | cons other others => simp [companions, misplaced] at h
          | nil =>
            simp only [companions, pure_apply, Emission.mk.injEq, true_and] at h
            exact ⟨.one, h.1.symm, h.2.symm⟩
      all_goals simp [companions, misplaced] at h
  · rintro ⟨holds, rfl, rfl⟩
    cases holds <;> rfl

theorem alternative_eq_slot {others : List Tree} (h : Companions others) :
    alternative others = slot (Tree.elseBody? others) := by
  cases h <;> simp [alternative, slot, Tree.elseBody?]

theorem EmitsValue.of_ok : ∀ (t : Tree) {c c' : Counters} {value : Operand} {code : Listing},
    expression t c = ⟨.ok value, code, c'⟩ → EmitsValue t c value code c'
  | ⟨kind, p, left, right, ss⟩, c, c', value, code => by
    intro h
    cases kind
    case number text =>
      simp only [expression, pure_apply, Emission.mk.injEq, Except.ok.injEq] at h
      obtain ⟨rfl, rfl, rfl⟩ := h
      exact .number
    case identifier name =>
      simp only [expression, pure_apply, Emission.mk.injEq, Except.ok.injEq] at h
      obtain ⟨rfl, rfl, rfl⟩ := h
      exact .identifier
    case binary op =>
      match left, right with
      | none, _ => simp [expression, missing] at h
      | some left, none =>
        simp only [expression, bind_eq_ok_iff] at h
        obtain ⟨_, _, _, _, _, h, _⟩ := h
        simp [missing] at h
      | some left, some right =>
        simp only [expression, bind_eq_ok_iff (x := expression _), newTemporary_bind,
          emit_bind_eq_ok_iff, pure_apply, Emission.mk.injEq, Except.ok.injEq] at h
        obtain ⟨first, code₁, c₁, _, hleft, ⟨second, code₂, c₂, _, hright, ⟨_, ⟨rfl, rfl, rfl⟩,
          rfl⟩, rfl⟩, rfl⟩ := h
        rw [← List.append_assoc]
        exact .binary (.of_ok left hleft) (.of_ok right hright)
    all_goals simp [expression, misplaced] at h

theorem EmitsValue.eq_ok {t : Tree} {c c' : Counters} {value : Operand} {code : Listing}
    (h : EmitsValue t c value code c') : expression t c = ⟨.ok value, code, c'⟩ := by
  induction h with
  | number => rw [expression]; rfl
  | identifier => rw [expression]; rfl
  | binary _ _ ihLeft ihRight =>
    simp only [expression, bind_ok ihLeft, bind_ok ihRight, newTemporary_bind,
      bind_ok (emit_apply _ _), pure_apply, List.append_nil, List.append_assoc]

theorem expression_eq_ok_iff {t : Tree} {c c' : Counters} {value : Operand} {code : Listing} :
    expression t c = ⟨.ok value, code, c'⟩ ↔ EmitsValue t c value code c' :=
  ⟨.of_ok t, EmitsValue.eq_ok⟩

theorem statement_whileLoop (p : Location) (test body : Tree) (ss : List Tree) :
    statement ⟨.whileLoop, p, some test, some body, ss⟩ =
      loop test (statement body) (slot none) := by
  rw [statement, slot]

theorem statement_forLoop (p : Location) (test body first advance : Tree) :
    statement ⟨.forLoop, p, some test, some body, [first, advance]⟩ =
      statement first >>= fun _ => loop test (statement body) (slot (some advance)) := by
  rw [statement, slot]

/-- The kinds that have a test and a body. -/
def isTested : Tree.Kind → Bool
  | .ifThen | .whileLoop | .doLoop | .forLoop => true
  | _ => false

theorem statement_without_test {kind : Tree.Kind} (h : isTested kind = true) (p : Location)
    (right : Option Tree) (ss : List Tree) :
    ∃ e, statement ⟨kind, p, none, right, ss⟩ = fail e := by
  cases kind <;> simp only [isTested, Bool.false_eq_true] at h <;>
    exact ⟨_, by simp only [statement]; rfl⟩

theorem statement_without_body {kind : Tree.Kind} (h : isTested kind = true) (p : Location)
    (test : Tree) (ss : List Tree) :
    ∃ e, statement ⟨kind, p, some test, none, ss⟩ = fail e := by
  cases kind <;> simp only [isTested, Bool.false_eq_true] at h <;>
    exact ⟨_, by simp only [statement]; rfl⟩

theorem statement_without_head (p : Location) (test body : Tree) (ss : List Tree)
    (h : ss.length ≠ 2) : ∃ e, statement ⟨.forLoop, p, some test, some body, ss⟩ = fail e := by
  match ss with
  | [] => exact ⟨_, by simp only [statement]; rfl⟩
  | [_] => exact ⟨_, by simp only [statement]; rfl⟩
  | [_, _] => exact absurd rfl h
  | _ :: _ :: _ :: _ => exact ⟨_, by simp only [statement]; rfl⟩

/-- What holds of failures holds of a statement with a test and a body if it holds where both
are there. -/
theorem statement_tested {P : Emit Unit → Prop} (fails : ∀ e, P (fail e)) {kind : Tree.Kind}
    (h : isTested kind = true) {p : Location} {left right : Option Tree} {ss : List Tree}
    (both : ∀ test body, statement body = slot right →
      P (statement ⟨kind, p, some test, some body, ss⟩)) :
    P (statement ⟨kind, p, left, right, ss⟩) := by
  match left, right with
  | none, right =>
    obtain ⟨e, failed⟩ := statement_without_test h p right ss
    rw [failed]
    exact fails e
  | some test, none =>
    obtain ⟨e, failed⟩ := statement_without_body h p test ss
    rw [failed]
    exact fails e
  | some test, some body => exact both test body (by rw [slot])

theorem slot_none_emits {c c' : Counters} {code : Listing} (h : slot none c = ⟨.ok (), code, c'⟩) :
    Emits (.slot none) c code c' := by
  simp only [slot, pure_apply, Emission.mk.injEq, true_and] at h
  obtain ⟨rfl, rfl⟩ := h
  exact .noSlot

/-- A loop is emitted by its rule if its parts are. -/
theorem loop_emits {test body : Tree} {advance : Option Tree} {c c' : Counters} {code : Listing}
    (hbody : ∀ {c₁ c₂ : Counters} {code₁ : Listing},
      statement body c₁ = ⟨.ok (), code₁, c₂⟩ → Emits (.statement body) c₁ code₁ c₂)
    (hadvance : ∀ {c₁ c₂ : Counters} {code₁ : Listing},
      slot advance c₁ = ⟨.ok (), code₁, c₂⟩ → Emits (.slot advance) c₁ code₁ c₂)
    (h : loop test (statement body) (slot advance) c = ⟨.ok (), code, c'⟩) :
    Emits (.loop test body advance) c code c' := by
  simp only [loop, bind_eq_ok_iff (x := expression _), bind_eq_ok_iff (x := statement _),
    bind_eq_ok_iff (x := slot _), expression_eq_ok_iff, newLabel_bind, emit_bind_eq_ok_iff,
    emit_apply, Emission.mk.injEq, true_and] at h
  obtain ⟨_, ⟨value, code₁, c₁, _, htest, ⟨_, ⟨_, code₂, c₂, _, hbodyOk, ⟨_, code₃, c₃, _,
    hadvanceOk, ⟨_, ⟨rfl, rfl⟩, rfl⟩, rfl⟩, rfl⟩, rfl⟩, rfl⟩, rfl⟩ := h
  have whole := Emits.loop htest (hbody hbodyOk) (hadvance hadvanceOk)
  simpa using whole

mutual

theorem statement_emits : ∀ (t : Tree) {c c' : Counters} {code : Listing},
    statement t c = ⟨.ok (), code, c'⟩ → Emits (.statement t) c code c'
  | ⟨kind, p, left, right, ss⟩, c, c', code => by
    intro h
    cases kind
    case assign =>
      match right with
      | none =>
        simp only [statement, bind_eq_ok_iff] at h
        obtain ⟨_, _, _, _, _, h, _⟩ := h
        simp [missing] at h
      | some e =>
        simp only [statement, bind_eq_ok_iff, target_eq_ok_iff, expression_eq_ok_iff, emit_apply,
          Emission.mk.injEq, true_and] at h
        obtain ⟨name, _, _, _, ⟨⟨q, l, r, us, rfl⟩, rfl, rfl⟩, ⟨value, code₁, c₁, _, he,
          ⟨rfl, rfl⟩, rfl⟩, rfl⟩ := h
        exact .assign he
    case step op =>
      simp only [statement, bind_eq_ok_iff (x := target _ _ _), target_eq_ok_iff,
        newTemporary_bind, emit_bind_eq_ok_iff, emit_apply, Emission.mk.injEq, true_and] at h
      obtain ⟨name, _, _, _, ⟨⟨q, l, r, us, rfl⟩, rfl, rfl⟩, ⟨_, ⟨rfl, rfl⟩, rfl⟩, rfl⟩ := h
      exact .step
    case returning =>
      match right with
      | none => simp [statement, missing] at h
      | some e =>
        simp only [statement, bind_eq_ok_iff, expression_eq_ok_iff, emit_apply,
          Emission.mk.injEq, true_and] at h
        obtain ⟨value, code₁, c₁, _, he, ⟨rfl, rfl⟩, rfl⟩ := h
        exact .returning he
    case ifThen =>
      match left, right with
      | none, _ => simp [statement, missing] at h
      | some _, none => simp [statement, missing] at h
      | some test, some body =>
        simp only [statement, bind_eq_ok_iff (x := companions _),
          bind_eq_ok_iff (x := expression _), bind_eq_ok_iff (x := statement _),
          bind_eq_ok_iff (x := alternative _), companions_eq_ok_iff, expression_eq_ok_iff,
          newLabel_bind, emit_bind_eq_ok_iff, emit_apply, Emission.mk.injEq, true_and] at h
        obtain ⟨_, _, _, _, ⟨hothers, rfl, rfl⟩, ⟨value, code₁, c₁, _, htest, ⟨_, ⟨_, code₂, c₂, _,
          hbody, ⟨_, ⟨_, ⟨_, code₃, c₃, _, hother, ⟨rfl, rfl⟩, rfl⟩, rfl⟩, rfl⟩, rfl⟩, rfl⟩, rfl⟩,
          rfl⟩ := h
        have whole := Emits.ifThen (p := p) hothers htest (statement_emits body hbody)
          (alternative_emits ss hother)
        simpa using whole
    case whileLoop =>
      match left, right with
      | none, _ => simp [statement, missing] at h
      | some _, none => simp [statement, missing] at h
      | some test, some body =>
        rw [statement_whileLoop] at h
        exact .whileLoop (loop_emits (statement_emits body) slot_none_emits h)
    case forLoop =>
      match left, right, ss with
      | none, _, _ => simp [statement, missing] at h
      | some _, none, _ => simp [statement, missing] at h
      | some test, some body, [first, advance] =>
        rw [statement_forLoop, bind_eq_ok_iff] at h
        obtain ⟨_, code₁, c₁, code₂, hfirst, hloop, rfl⟩ := h
        exact .forLoop (statement_emits first hfirst)
          (loop_emits (statement_emits body)
            (fun hadvance => .slot (statement_emits advance hadvance)) hloop)
      | some _, some _, [] => simp [statement, missing] at h
      | some _, some _, [_] => simp [statement, missing] at h
      | some _, some _, _ :: _ :: _ :: _ => simp [statement, missing] at h
    case doLoop =>
      match left, right with
      | none, _ => simp [statement, missing] at h
      | some _, none => simp [statement, missing] at h
      | some test, some body =>
        simp only [statement, bind_eq_ok_iff (x := expression _),
          bind_eq_ok_iff (x := statement _), expression_eq_ok_iff,
          newLabel_bind, emit_bind_eq_ok_iff, emit_apply, Emission.mk.injEq, true_and] at h
        obtain ⟨_, ⟨_, code₁, c₁, _, hbody, ⟨value, code₂, c₂, _, htest, ⟨rfl, rfl⟩, rfl⟩, rfl⟩,
          rfl⟩ := h
        have whole : Emits (.statement ⟨.doLoop, p, some test, some body, ss⟩) _ _ _ :=
          .doLoop (statement_emits body hbody) htest
        simpa using whole
    case switch =>
      match left with
      | none => simp [statement, missing] at h
      | some e =>
        simp only [statement, bind_eq_ok_iff (x := expression _), bind_eq_ok_iff (x := arms _ _ _),
          expression_eq_ok_iff, behind_bind, emit_apply, Emission.mk.injEq, true_and] at h
        obtain ⟨value, code₁, c₁, _, he, ⟨done, code₂, c₂, _, harms, ⟨rfl, rfl⟩, rfl⟩, rfl⟩ := h
        have whole : Emits (.statement ⟨.switch, p, some e, right, ss⟩) _ _ _ :=
          .switch he (arms_emits value none ss harms)
        simpa using whole
    case separator =>
      simp only [statement, bind_eq_ok_iff] at h
      obtain ⟨_, code₁, c₁, code₂, hleft, hright, rfl⟩ := h
      exact .row rfl (slot_emits left hleft) (slot_emits right hright)
    case sequence =>
      simp only [statement, bind_eq_ok_iff] at h
      obtain ⟨_, code₁, c₁, code₂, hleft, hright, rfl⟩ := h
      exact .row rfl (slot_emits left hleft) (slot_emits right hright)
    case block =>
      rw [statement] at h
      exact .block (statements_emits ss h)
    case empty =>
      simp only [statement, pure_apply, Emission.mk.injEq, true_and] at h
      obtain ⟨rfl, rfl⟩ := h
      exact .empty
    case number text =>
      simp only [statement, pure_apply, Emission.mk.injEq, true_and] at h
      obtain ⟨rfl, rfl⟩ := h
      exact .expression .number
    case identifier name =>
      simp only [statement, pure_apply, Emission.mk.injEq, true_and] at h
      obtain ⟨rfl, rfl⟩ := h
      exact .expression .identifier
    case binary op =>
      simp only [statement, bind_eq_ok_iff, expression_eq_ok_iff, pure_apply, Emission.mk.injEq,
        true_and] at h
      obtain ⟨value, code₁, c₁, _, he, ⟨rfl, rfl⟩, rfl⟩ := h
      simpa using Emits.expression he
    all_goals simp [statement, misplaced] at h

theorem slot_emits : ∀ (t : Option Tree) {c c' : Counters} {code : Listing},
    slot t c = ⟨.ok (), code, c'⟩ → Emits (.slot t) c code c'
  | none, _, _, _ => slot_none_emits
  | some t, c, c', code => by
    intro h
    rw [slot] at h
    exact .slot (statement_emits t h)

theorem alternative_emits : ∀ (others : List Tree) {c c' : Counters} {code : Listing},
    alternative others c = ⟨.ok (), code, c'⟩ → Emits (.slot (Tree.elseBody? others)) c code c'
  | [], c, c', code => by
    intro h
    simp only [alternative, pure_apply, Emission.mk.injEq, true_and] at h
    obtain ⟨rfl, rfl⟩ := h
    exact .noSlot
  | ⟨kind, p, left, right, ss⟩ :: others, c, c', code => by
    intro h
    by_cases hkind : kind = .elseBranch
    · subst hkind
      match right with
      | none =>
        simp only [alternative, pure_apply, Emission.mk.injEq, true_and] at h
        obtain ⟨rfl, rfl⟩ := h
        exact .noSlot
      | some body =>
        rw [alternative] at h
        exact .slot (statement_emits body h)
    · cases kind
      case elseBranch => exact absurd rfl hkind
      all_goals
        simp only [alternative, pure_apply, Emission.mk.injEq, true_and] at h
        obtain ⟨rfl, rfl⟩ := h
        exact .noSlot

theorem statements_emits : ∀ (ts : List Tree) {c c' : Counters} {code : Listing},
    statements ts c = ⟨.ok (), code, c'⟩ → Emits (.statements ts) c code c'
  | [], c, c', code => by
    intro h
    simp only [statements, pure_apply, Emission.mk.injEq, true_and] at h
    obtain ⟨rfl, rfl⟩ := h
    exact .noStatements
  | t :: ts, c, c', code => by
    intro h
    simp only [statements, bind_eq_ok_iff] at h
    obtain ⟨_, code₁, c₁, code₂, hfirst, hothers, rfl⟩ := h
    exact .statements (statement_emits t hfirst) (statements_emits ts hothers)

theorem arms_emits : ∀ (value : Operand) (done : Option Label) (ts : List Tree)
    {c c' : Counters} {drawn : Option Label} {code : Listing},
    arms value done ts c = ⟨.ok drawn, code, c'⟩ → Emits (.arms value done ts drawn) c code c'
  | value, done, [], c, c', drawn, code => by
    intro h
    simp only [arms, pure_apply, Emission.mk.injEq, Except.ok.injEq] at h
    obtain ⟨rfl, rfl, rfl⟩ := h
    exact .noArms
  | value, done, ⟨kind, p, left, right, ss⟩ :: others, c, c', drawn, code => by
    intro h
    cases kind
    case caseArm =>
      match left, right with
      | none, _ => simp [arms, missing] at h
      | some _, none => simp [arms, missing] at h
      | some e, some body =>
        simp only [arms, bind_eq_ok_iff (x := expression _), bind_eq_ok_iff (x := statement _),
          expression_eq_ok_iff, newTemporary_bind, newLabel_bind, behind_bind,
          emit_bind_eq_ok_iff] at h
        obtain ⟨constant, code₁, c₁, _, he, ⟨_, ⟨_, ⟨_, code₂, c₂, _, hbody, ⟨_, ⟨code₃, hothers,
          rfl⟩, rfl⟩, rfl⟩, rfl⟩, rfl⟩, rfl⟩ := h
        have whole : Emits
            (.arms value done (⟨.caseArm, p, some e, some body, ss⟩ :: others) drawn) _ _ _ :=
          .caseArm he (statement_emits body hbody) (arms_emits value _ others hothers)
        simpa using whole
    case defaultArm =>
      match right with
      | none => simp [arms, missing] at h
      | some body =>
        simp only [arms, bind_eq_ok_iff (x := statement _), behind_bind,
          emit_bind_eq_ok_iff] at h
        obtain ⟨_, code₁, c₁, _, hbody, ⟨code₂, hothers, rfl⟩, rfl⟩ := h
        exact .defaultArm (statement_emits body hbody) (arms_emits value _ others hothers)
    all_goals simp [arms, misplaced] at h

end

/-- The computation that belongs to a piece succeeds so. -/
def Succeeds : Piece → Counters → Listing → Counters → Prop
  | .statement t, c, code, c' => statement t c = ⟨.ok (), code, c'⟩
  | .slot t, c, code, c' => slot t c = ⟨.ok (), code, c'⟩
  | .statements ts, c, code, c' => statements ts c = ⟨.ok (), code, c'⟩
  | .loop test body advance, c, code, c' =>
    loop test (statement body) (slot advance) c = ⟨.ok (), code, c'⟩
  | .arms value done ts drawn, c, code, c' => arms value done ts c = ⟨.ok drawn, code, c'⟩

theorem succeeds_of_emits {piece : Piece} {c c' : Counters} {code : Listing}
    (h : Emits piece c code c') : Succeeds piece c code c' := by
  induction h with
  | assign he =>
    simp only [Succeeds, statement, target, pure_bind, bind_ok he.eq_ok, emit_apply]
  | step =>
    simp only [Succeeds, statement, target, pure_bind, newTemporary_bind,
      bind_ok (emit_apply _ _), emit_apply, List.cons_append, List.nil_append]
  | returning he => simp only [Succeeds, statement, bind_ok he.eq_ok, emit_apply]
  | ifThen hothers htest _ _ ihBody ihOther =>
    have checked := fun c => (companions_eq_ok_iff (u := ()) (c := c)).mpr ⟨hothers, rfl, rfl⟩
    simp only [Succeeds, statement, bind_ok (checked _), bind_ok htest.eq_ok, newLabel_bind,
      bind_ok (emit_apply _ _), bind_ok ihBody, alternative_eq_slot hothers, bind_ok ihOther,
      emit_apply, List.nil_append, List.cons_append, List.append_assoc]
  | whileLoop _ ih =>
    rw [Succeeds, statement_whileLoop]
    exact ih
  | forLoop _ _ ihFirst ihLoop =>
    simp only [Succeeds] at ihLoop ⊢
    rw [statement_forLoop, bind_ok ihFirst, ihLoop]
  | doLoop _ htest ihBody =>
    simp only [Succeeds, statement, newLabel_bind, bind_ok (emit_apply _ _), bind_ok ihBody,
      bind_ok htest.eq_ok, emit_apply, List.nil_append, List.cons_append, List.append_assoc]
  | switch he _ ihArms =>
    simp only [Succeeds, statement, bind_ok he.eq_ok, bind_ok ihArms, behind_bind,
      emit_apply, List.append_assoc]
  | row hkind _ _ ihLeft ihRight =>
    simp only [Succeeds] at ihRight ⊢
    rw [statement_of_sequence hkind, bind_ok ihLeft, ihRight]
  | block _ ih =>
    rw [Succeeds, statement]
    exact ih
  | empty => rw [Succeeds, statement, pure_apply]
  | expression he =>
    cases he with
    | number => rw [Succeeds, statement, pure_apply]
    | identifier => rw [Succeeds, statement, pure_apply]
    | binary hleft hright =>
      simp only [Succeeds, statement, bind_ok (EmitsValue.binary hleft hright).eq_ok,
        pure_apply, List.append_nil]
  | noSlot => rw [Succeeds, slot, pure_apply]
  | slot _ ih =>
    rw [Succeeds, slot]
    exact ih
  | noStatements => rw [Succeeds, statements, pure_apply]
  | statements _ _ ihFirst ihOthers =>
    simp only [Succeeds] at ihOthers ⊢
    rw [statements, bind_ok ihFirst, ihOthers]
  | loop htest _ _ ihBody ihAdvance =>
    simp only [Succeeds, loop, bind_ok htest.eq_ok, newLabel_bind,
      bind_ok (emit_apply _ _), bind_ok ihBody, bind_ok ihAdvance, emit_apply, List.nil_append,
      List.cons_append, List.append_assoc]
  | noArms => rw [Succeeds, arms, pure_apply]
  | caseArm he _ _ ihBody ihOthers =>
    rw [Succeeds] at ihOthers
    simp only [Succeeds, arms, bind_ok he.eq_ok, newTemporary_bind, newLabel_bind,
      bind_ok (emit_apply _ _), bind_ok ihBody, behind_bind, ihOthers,
      Counters.label_drawTemporary, List.nil_append, List.cons_append, List.append_assoc]
  | defaultArm _ _ ihBody ihOthers =>
    rw [Succeeds] at ihOthers
    simp only [Succeeds, arms, bind_ok ihBody, behind_bind, bind_ok (emit_apply _ _),
      ihOthers, List.nil_append, List.cons_append]

theorem statement_eq_ok_iff {t : Tree} {c c' : Counters} {code : Listing} :
    statement t c = ⟨.ok (), code, c'⟩ ↔ Emits (.statement t) c code c' :=
  ⟨statement_emits t, succeeds_of_emits⟩

end Lowering

/-- A tree is lowered exactly if it has code, counted from zero. -/
theorem lower_eq_ok_iff {t : Tree} {listing : Listing} :
    lower t = .ok listing ↔ ∃ c, Lowering.Emits (.statement t) .zero listing c := by
  simp only [← Lowering.statement_eq_ok_iff, lower, Generator.lower, Generator.run,
    Generator.empty, List.nil_append]
  rcases Lowering.statement t .zero with ⟨_ | _, code, c⟩ <;> simp

end Quadrupler
