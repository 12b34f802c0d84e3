import Quadrupler.Proofs.Lowering.Labels
import Quadrupler.Proofs.Lowering.Numbering
set_option autoImplicit false

/-!
# Labels are placed at most once

A label that has been drawn is owed: some quadruple names it, and at most one definition may
follow.  `Places` keeps the account along an emitter.  What it defines and what it still owes
when it ends was owed before or has been drawn meanwhile.  An emitter that fails leaves its debts
unpaid, so the account holds of failures as well.
-/

namespace Quadrupler

/-! ## The labels that a quadruple names -/

namespace Quadruple

/-- The label that stands here, or the one that a jump may go to. -/
def mentions (q : Quadruple) : List Label := q.label?.toList ++ q.target?.toList

/-- Labels stand nowhere else in the quadruple. -/
def Tidy (q : Quadruple) : Prop := q.labels = q.mentions

variable {x y : Operand}

theorem tidy_binary (op : BinaryOp) (hx : x.label? = none) (hy : y.label? = none) (t : Temporary) :
    (binary op x y t).Tidy := by
  unfold Tidy labels
  simp only [binary, hx, hy]
  rfl

theorem tidy_assign (hx : x.label? = none) (name : String) : (assign x name).Tidy := by
  unfold Tidy labels
  simp only [assign, hx]
  rfl

theorem tidy_returning (hx : x.label? = none) : (returning x).Tidy := by
  unfold Tidy labels
  simp only [returning, hx]
  rfl

theorem tidy_ifFalse (hx : x.label? = none) (l : Label) : (ifFalse x l).Tidy := by
  unfold Tidy labels
  simp only [ifFalse, hx]
  rfl

theorem tidy_ifTrue (hx : x.label? = none) (l : Label) : (ifTrue x l).Tidy := by
  unfold Tidy labels
  simp only [ifTrue, hx]
  rfl

theorem tidy_goto (l : Label) : (goto l).Tidy := rfl

theorem tidy_label (l : Label) : (label l).Tidy := rfl

end Quadruple

/-! ## The account of an emitter -/

/-- One for a label that has been drawn. -/
def Counters.drawn (c : Counters) (l : Label) : Nat := if l.index < c.labels then 1 else 0

/-- Drawing a label and owing it keeps the balance. -/
theorem Counters.count_cons_label (c : Counters) (owed : List Label) (l : Label) :
    (c.label :: owed).count l + c.drawn l = owed.count l + c.drawLabel.drawn l := by
  have next : c.label = l ↔ l.index = c.labels := by
    cases l
    simp [Counters.label, eq_comm]
  unfold drawn
  rw [List.count_cons, labels_drawLabel]
  rcases Nat.lt_trichotomy l.index c.labels with before | here | behind
  · simp [next, before, Nat.lt_succ_of_lt before, Nat.ne_of_lt before]
  · simp [next, here]
  · simp [next, Nat.not_lt_of_gt behind, Nat.not_lt_of_ge behind, Nat.ne_of_gt behind]

namespace Emit

open Listing

variable {α β : Type} {owed : List Label}

/-- What is owed after a result; nobody pays after a failure. -/
def owedAfter (left : α → List Label) : Except LoweringError α → List Label
  | .ok a => left a
  | .error _ => []

/-- The code is tidy, and every definition in it is of a label that was owed before or has been
drawn meanwhile; `left` says what is owed afterwards. -/
def Places (x : Emit α) (owed : List Label) (left : α → List Label) : Prop :=
  ∀ c, (∀ q ∈ (x c).code, q.Tidy) ∧
    ∀ l, definitions (x c).code l + (owedAfter left (x c).result).count l + c.drawn l ≤
      owed.count l + (x c).counters.drawn l

/-- Debts have no order. -/
theorem Places.of_perm {x : Emit α} {before : List Label} {left : α → List Label}
    (same : before.Perm owed) (h : x.Places owed left) : x.Places before left := by
  intro c
  obtain ⟨tidy, account⟩ := h c
  refine ⟨tidy, fun l => ?_⟩
  rw [same.count_eq]
  exact account l

theorem places_pure (a : α) {left : α → List Label} : (pure a : Emit α).Places (left a) left := by
  intro c
  refine ⟨by simp, fun l => ?_⟩
  simp [owedAfter]

theorem places_fail (e : LoweringError) {left : α → List Label} :
    (fail e : Emit α).Places owed left := by
  intro c
  refine ⟨by simp, fun l => ?_⟩
  simp [owedAfter]

/-- Debts are handed on to what comes next. -/
theorem Places.bind {x : Emit α} {f : α → Emit β} {mid : α → List Label}
    {left : β → List Label} (first : x.Places owed mid)
    (next : ∀ a c, (x c).result = .ok a → (f a).Places (mid a) left) :
    (x >>= f).Places owed left := by
  intro c
  obtain ⟨tidy, account⟩ := first c
  rcases hx : x c with ⟨_ | a, code, c₁⟩
  · rw [hx] at tidy account
    rw [bind_error hx]
    exact ⟨tidy, account⟩
  · obtain ⟨tidy', account'⟩ := next a c (by rw [hx]) c₁
    rw [hx] at tidy account
    rw [bind_ok hx]
    refine ⟨List.forall_mem_append.mpr ⟨tidy, tidy'⟩, fun l => ?_⟩
    have here := account l
    have there := account' l
    simp only [owedAfter] at here
    simp only [definitions_append]
    omega

theorem places_newTemporary : newTemporary.Places owed fun _ => owed := by
  intro c
  refine ⟨by simp, fun l => ?_⟩
  simp only [newTemporary_apply, definitions_nil, owedAfter, Nat.zero_add]
  exact Nat.le_refl _

theorem places_newLabel : newLabel.Places owed fun l => l :: owed := by
  intro c
  refine ⟨by simp, fun l => ?_⟩
  simp only [newLabel_apply, definitions_nil, owedAfter, Nat.zero_add]
  exact Nat.le_of_eq (c.count_cons_label owed l)

theorem places_emit {q : Quadruple} (tidy : q.Tidy) (plain : q.label? = none) :
    (emit q).Places owed fun _ => owed := by
  intro c
  refine ⟨by simpa using tidy, fun l => ?_⟩
  simp [owedAfter, plain]

/-- A definition pays for the label. -/
theorem places_label {l : Label} : (emit (.label l)).Places (l :: owed) fun _ => owed := by
  intro c
  refine ⟨by simpa using Quadruple.tidy_label l, fun m => ?_⟩
  by_cases hm : l = m
  · simp [owedAfter, hm]
    omega
  · simp [owedAfter, hm]

end Emit

namespace Lowering

open Emit

variable {owed : List Label}

/-- The label behind a switch is owed once it has been drawn. -/
theorem behind_places (done : Option Label) :
    (behind done).Places (done.toList ++ owed) fun l => l :: owed := by
  cases done with
  | none => exact places_newLabel
  | some l => exact places_pure l

theorem target_places (kind : Tree.Kind) (p : Location) (slot : Option Tree) :
    (target kind p slot).Places owed fun _ => owed := by
  unfold target
  split
  · exact places_fail _
  · exact places_pure _
  · exact places_fail _

theorem companions_places (others : List Tree) :
    (companions others).Places owed fun _ => owed := by
  unfold companions
  split
  · exact places_pure _
  · exact places_fail _
  · split
    · exact places_pure _
    · exact places_fail _
  · exact places_fail _

/-- The value of an expression is no label. -/
theorem label?_of_expression {t : Tree} {c : Counters} {value : Operand}
    (h : (expression t c).result = .ok value) : value.label? = none :=
  ((expression_numbers t c).2 value h).label?_eq

theorem expression_places : ∀ (t : Tree) (owed : List Label),
    (expression t).Places owed fun _ => owed
  | ⟨kind, p, left, right, ss⟩, owed => by
    cases kind
    case number text =>
      rw [expression]
      exact places_pure _
    case identifier name =>
      rw [expression]
      exact places_pure _
    case binary op =>
      cases left with
      | none =>
        rw [expression]
        exact places_fail _
      | some left =>
        rw [expression]
        refine (expression_places left _).bind fun first _ hfirst => ?_
        cases right with
        | none => exact places_fail _
        | some right =>
          refine (expression_places right _).bind fun second _ hsecond => ?_
          refine places_newTemporary.bind fun t _ _ => ?_
          have tidy := Quadruple.tidy_binary op (label?_of_expression hfirst)
            (label?_of_expression hsecond) t
          exact (places_emit tidy rfl).bind fun _ _ _ => places_pure _
    all_goals
      simp only [expression]
      exact places_fail _

/-- A loop keeps the account if its parts do. -/
theorem loop_places {test : Tree} {body advance : Emit Unit}
    (hbody : ∀ owed, body.Places owed fun _ => owed)
    (hadvance : ∀ owed, advance.Places owed fun _ => owed) :
    (loop test body advance).Places owed fun _ => owed := by
  unfold loop
  refine places_newLabel.bind fun start _ _ => places_label.bind fun _ _ _ => ?_
  refine (expression_places test _).bind fun value _ hvalue => ?_
  refine places_newLabel.bind fun done _ _ => ?_
  have tidy := Quadruple.tidy_ifFalse (label?_of_expression hvalue) done
  refine (places_emit tidy rfl).bind fun _ _ _ => ?_
  refine (hbody _).bind fun _ _ _ => (hadvance _).bind fun _ _ _ => ?_
  exact (places_emit (Quadruple.tidy_goto start) rfl).bind fun _ _ _ => places_label

mutual

theorem statement_places : ∀ (t : Tree) (owed : List Label),
    (statement t).Places owed fun _ => owed
  | ⟨kind, p, left, right, ss⟩, owed => by
    cases kind
    case assign =>
      rw [statement]
      refine (target_places _ _ _).bind fun name _ _ => ?_
      cases right with
      | none => exact places_fail _
      | some right =>
        refine (expression_places right _).bind fun value _ hvalue => ?_
        exact places_emit (Quadruple.tidy_assign (label?_of_expression hvalue) name) rfl
    case step op =>
      rw [statement]
      refine (target_places _ _ _).bind fun name _ _ => ?_
      refine places_newTemporary.bind fun t _ _ => ?_
      refine (places_emit (Quadruple.tidy_binary _ rfl rfl t) rfl).bind fun _ _ _ => ?_
      exact places_emit (Quadruple.tidy_assign rfl name) rfl
    case returning =>
      cases right with
      | none =>
        rw [statement]
        exact places_fail _
      | some right =>
        rw [statement]
        refine (expression_places right _).bind fun value _ hvalue => ?_
        exact places_emit (Quadruple.tidy_returning (label?_of_expression hvalue)) rfl
    case ifThen =>
      refine statement_tested (P := (Places · owed fun _ => owed)) (places_fail ·) rfl ?_
      intro test body hbody
      rw [statement, hbody]
      refine (companions_places ss).bind fun _ _ _ => ?_
      refine (expression_places test _).bind fun value _ hvalue => ?_
      refine places_newLabel.bind fun otherwise _ _ => ?_
      have tidy := Quadruple.tidy_ifFalse (label?_of_expression hvalue) otherwise
      refine (places_emit tidy rfl).bind fun _ _ _ => ?_
      refine (slot_places right _).bind fun _ _ _ => places_newLabel.bind fun done _ _ => ?_
      refine (places_emit (Quadruple.tidy_goto done) rfl).bind fun _ _ _ => ?_
      -- Two labels are owed, and the one drawn first is defined first.
      refine (places_label.of_perm (.swap ..)).bind fun _ _ _ => ?_
      exact (alternative_places ss _).bind fun _ _ _ => places_label
    case whileLoop =>
      refine statement_tested (P := (Places · owed fun _ => owed)) (places_fail ·) rfl ?_
      intro test body hbody
      rw [statement_whileLoop]
      refine loop_places (hbody ▸ slot_places right) fun owed => ?_
      rw [slot]
      exact places_pure _
    case forLoop =>
      refine statement_tested (P := (Places · owed fun _ => owed)) (places_fail ·) rfl ?_
      intro test body hbody
      match ss with
      | [first, advance] =>
        rw [statement_forLoop]
        refine (statement_places first owed).bind fun _ _ _ => ?_
        refine loop_places (hbody ▸ slot_places right) fun owed => ?_
        rw [slot]
        exact statement_places advance owed
      | [] | [_] | _ :: _ :: _ :: _ =>
        simp only [statement]
        exact places_fail _
    case doLoop =>
      refine statement_tested (P := (Places · owed fun _ => owed)) (places_fail ·) rfl ?_
      intro test body hbody
      rw [statement, hbody]
      refine places_newLabel.bind fun start _ _ => places_label.bind fun _ _ _ => ?_
      refine (slot_places right owed).bind fun _ _ _ => ?_
      refine (expression_places test _).bind fun value _ hvalue => ?_
      exact places_emit (Quadruple.tidy_ifTrue (label?_of_expression hvalue) start) rfl
    case switch =>
      cases left with
      | none =>
        rw [statement]
        exact places_fail _
      | some discriminant =>
        rw [statement]
        refine (expression_places discriminant _).bind fun value _ hvalue => ?_
        refine (arms_places value none ss owed (label?_of_expression hvalue)).bind
          fun done _ _ => ?_
        exact (behind_places done).bind fun _ _ _ => places_label
    case separator =>
      rw [statement]
      exact (slot_places left owed).bind fun _ _ _ => slot_places right owed
    case sequence =>
      rw [statement]
      exact (slot_places left owed).bind fun _ _ _ => slot_places right owed
    case block =>
      rw [statement]
      exact statements_places ss owed
    case binary op =>
      rw [statement]
      exact (expression_places _ _).bind fun _ _ _ => places_pure _
    case elseBranch =>
      rw [statement]
      exact places_fail _
    case caseArm =>
      rw [statement]
      exact places_fail _
    case defaultArm =>
      rw [statement]
      exact places_fail _
    all_goals
      rw [statement]
      exact places_pure _

theorem slot_places : ∀ (t : Option Tree) (owed : List Label),
    (slot t).Places owed fun _ => owed
  | none, owed => by
    rw [slot]
    exact places_pure _
  | some t, owed => by
    rw [slot]
    exact statement_places t owed

theorem statements_places : ∀ (ts : List Tree) (owed : List Label),
    (statements ts).Places owed fun _ => owed
  | [], owed => by
    rw [statements]
    exact places_pure _
  | t :: ts, owed => by
    rw [statements]
    exact (statement_places t owed).bind fun _ _ _ => statements_places ts owed

theorem alternative_places : ∀ (others : List Tree) (owed : List Label),
    (alternative others).Places owed fun _ => owed
  | [], owed => by
    simp only [alternative]
    exact places_pure _
  | ⟨kind, p, left, right, ss⟩ :: others, owed => by
    cases kind
    case elseBranch =>
      cases right with
      | none =>
        simp only [alternative]
        exact places_pure _
      | some body =>
        rw [alternative]
        exact statement_places body owed
    all_goals
      simp only [alternative]
      exact places_pure _

/-- Arms owe the label behind their switch from the first one on. -/
theorem arms_places : ∀ (value : Operand) (done : Option Label) (ts : List Tree)
    (owed : List Label), value.label? = none →
    (arms value done ts).Places (done.toList ++ owed) fun drawn => drawn.toList ++ owed
  | value, done, [], owed => by
    intro _
    rw [arms]
    exact places_pure done
  | value, done, ⟨kind, p, left, right, ss⟩ :: others, owed => by
    intro hvalue
    cases kind
    case caseArm =>
      rcases left with _ | constant
      · rw [arms]
        exact places_fail _
      rcases right with _ | body
      · rw [arms]
        exact places_fail _
      rw [arms]
      refine (expression_places constant _).bind fun x _ hx => ?_
      refine places_newTemporary.bind fun test _ _ => ?_
      have compares := Quadruple.tidy_binary .eq hvalue (label?_of_expression hx) test
      refine (places_emit compares rfl).bind fun _ _ _ => ?_
      refine places_newLabel.bind fun next _ _ => ?_
      have skips : (Quadruple.ifFalse (.temporary test) next).Tidy :=
        Quadruple.tidy_ifFalse rfl next
      refine (places_emit skips rfl).bind fun _ _ _ => ?_
      refine (statement_places body _).bind fun _ _ _ => ?_
      refine ((behind_places done).of_perm List.perm_middle.symm).bind fun out _ _ => ?_
      refine (places_emit (Quadruple.tidy_goto out) rfl).bind fun _ _ _ => ?_
      refine (places_label.of_perm (.swap ..)).bind fun _ _ _ => ?_
      exact arms_places value (some out) others owed hvalue
    case defaultArm =>
      rcases right with _ | body
      · rw [arms]
        exact places_fail _
      rw [arms]
      refine (statement_places body _).bind fun _ _ _ => ?_
      refine (behind_places done).bind fun out _ _ => ?_
      refine (places_emit (Quadruple.tidy_goto out) rfl).bind fun _ _ _ => ?_
      exact arms_places value (some out) others owed hvalue
    all_goals
      simp only [arms]
      exact places_fail _

end

end Lowering

end Quadrupler
