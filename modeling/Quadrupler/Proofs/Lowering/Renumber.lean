import Quadrupler.Proofs.Lowering.Code
import Quadrupler.Quadruple.Renumber
set_option autoImplicit false

/-!
# Lowering after other code

What an emitter does depends on the counters only in the numbers of the names it draws.
Where other code has drawn names before, it has the same result or fails in the same way,
and its code is the same with every name raised by what was drawn.
-/

namespace Quadrupler

/-- What comes out of an emitter, after other code. -/
def Emission.raise {α : Type} (drawn : Counters) (f : α → α) (e : Emission α) : Emission α :=
  ⟨e.result.map f, e.code.raise drawn, drawn.plus e.counters⟩

@[simp] theorem Counters.plus_zero (c : Counters) : c.plus .zero = c := rfl

theorem Listing.raise_append (drawn : Counters) (code code' : Listing) :
    Listing.raise drawn (code ++ code') = code.raise drawn ++ code'.raise drawn :=
  List.map_append

namespace Emit

variable {α β : Type} {drawn : Counters}

/-- With other code before it, the first emitter does what the second does without; `f` says
how their results compare. -/
def Follows (drawn : Counters) (f : α → α) (x y : Emit α) : Prop :=
  ∀ c, x (drawn.plus c) = (y c).raise drawn f

theorem follows_pure {f : α → α} {a b : α} (h : b = f a) :
    Follows drawn f (pure b) (pure a) := by
  subst h
  exact fun _ => rfl

theorem follows_fail (f : α → α) (e : LoweringError) : Follows drawn f (fail e) (fail e) :=
  fun _ => rfl

theorem follows_emit {p q : Quadruple} (h : p = q.raise drawn) :
    Follows drawn id (emit p) (emit q) := by
  subst h
  exact fun _ => rfl

theorem follows_newTemporary : Follows drawn (Temporary.raise drawn) newTemporary newTemporary :=
  fun _ => rfl

theorem follows_newLabel : Follows drawn (Label.raise drawn) newLabel newLabel :=
  fun _ => rfl

theorem Follows.bind {x y : Emit α} {g h : α → Emit β} {f : α → α} {f' : β → β}
    (first : Follows drawn f x y) (next : ∀ a, Follows drawn f' (g (f a)) (h a)) :
    Follows drawn f' (x >>= g) (y >>= h) := by
  intro c
  have here := first c
  rcases hy : y c with ⟨_ | a, code, c'⟩
  · rw [hy] at here
    rw [bind_error hy, bind_error here]
    rfl
  · rw [hy] at here
    rw [bind_ok hy, bind_ok here, next a c']
    simp [Emission.raise, Listing.raise_append]

theorem follows_emit_bind {p q : Quadruple} {x y : Unit → Emit α} {f : α → α}
    (h : p = q.raise drawn) (next : Follows drawn f (x ()) (y ())) :
    Follows drawn f (emit p >>= x) (emit q >>= y) :=
  (follows_emit h).bind fun _ => next

end Emit

namespace Lowering

open Emit

variable {drawn : Counters}

theorem target_follows (kind : Tree.Kind) (p : Location) (slot : Option Tree) :
    Follows drawn id (target kind p slot) (target kind p slot) := by
  unfold target
  split
  · exact follows_fail _ _
  · exact follows_pure rfl
  · exact follows_fail _ _

theorem companions_follows (others : List Tree) :
    Follows drawn id (companions others) (companions others) := by
  unfold companions
  split
  · exact follows_pure rfl
  · exact follows_fail _ _
  · split
    · exact follows_pure rfl
    · exact follows_fail _ _
  · exact follows_fail _ _

theorem behind_follows (done : Option Label) :
    Follows drawn (Label.raise drawn) (behind (done.map (Label.raise drawn))) (behind done) := by
  cases done with
  | none => exact follows_newLabel
  | some l => exact follows_pure rfl

theorem expression_follows (t : Tree) :
    Follows drawn (Operand.raise drawn) (expression t) (expression t) := by
  obtain ⟨kind, p, left, right, ss⟩ := t
  cases kind
  case number text =>
    rw [expression]
    exact follows_pure rfl
  case identifier name =>
    rw [expression]
    exact follows_pure rfl
  case binary op =>
    cases left with
    | none =>
      rw [expression]
      exact follows_fail _ _
    | some left =>
      rw [expression]
      refine (expression_follows left).bind fun first => ?_
      cases right with
      | none => exact follows_fail _ _
      | some right =>
        refine (expression_follows right).bind fun second => ?_
        refine follows_newTemporary.bind fun t => ?_
        exact follows_emit_bind rfl <| follows_pure rfl
  all_goals
    simp only [expression]
    exact follows_fail _ _

/-- A loop follows if its parts do. -/
theorem loop_follows {test : Tree} {body advance : Emit Unit} (hbody : Follows drawn id body body)
    (hadvance : Follows drawn id advance advance) :
    Follows drawn id (loop test body advance) (loop test body advance) := by
  unfold loop
  refine follows_newLabel.bind fun start => follows_emit_bind rfl ?_
  refine (expression_follows test).bind fun value => ?_
  refine follows_newLabel.bind fun done => follows_emit_bind rfl ?_
  refine hbody.bind fun _ => hadvance.bind fun _ => ?_
  exact follows_emit_bind rfl <| follows_emit rfl

mutual

theorem statement_follows : ∀ t : Tree, Follows drawn id (statement t) (statement t)
  | ⟨kind, p, left, right, ss⟩ => by
    cases kind
    case assign =>
      rw [statement]
      refine (target_follows _ _ _).bind fun name => ?_
      match right with
      | none => exact follows_fail _ _
      | some right => exact (expression_follows right).bind fun value => follows_emit rfl
    case step op =>
      rw [statement]
      refine (target_follows _ _ _).bind fun name => follows_newTemporary.bind fun t => ?_
      exact follows_emit_bind rfl <| follows_emit rfl
    case returning =>
      match right with
      | none =>
        rw [statement]
        exact follows_fail _ _
      | some right =>
        rw [statement]
        exact (expression_follows right).bind fun value => follows_emit rfl
    case ifThen =>
      refine statement_tested (P := fun x => Follows drawn id x x) (follows_fail id) rfl ?_
      intro test body hbody
      rw [statement, hbody]
      refine (companions_follows ss).bind fun _ => (expression_follows test).bind fun value => ?_
      refine follows_newLabel.bind fun otherwise => follows_emit_bind rfl ?_
      refine (slot_follows right).bind fun _ => follows_newLabel.bind fun done => ?_
      refine follows_emit_bind rfl <| follows_emit_bind rfl ?_
      exact (alternative_follows ss).bind fun _ => follows_emit rfl
    case whileLoop =>
      refine statement_tested (P := fun x => Follows drawn id x x) (follows_fail id) rfl ?_
      intro test body hbody
      rw [statement_whileLoop]
      exact loop_follows (hbody ▸ slot_follows right) (slot_follows none)
    case forLoop =>
      refine statement_tested (P := fun x => Follows drawn id x x) (follows_fail id) rfl ?_
      intro test body hbody
      match ss with
      | [first, advance] =>
        rw [statement_forLoop]
        refine (statement_follows first).bind fun _ => ?_
        exact loop_follows (hbody ▸ slot_follows right) (slot_follows (some advance))
      | [] | [_] | _ :: _ :: _ :: _ =>
        simp only [statement]
        exact follows_fail _ _
    case doLoop =>
      refine statement_tested (P := fun x => Follows drawn id x x) (follows_fail id) rfl ?_
      intro test body hbody
      rw [statement, hbody]
      refine follows_newLabel.bind fun start => follows_emit_bind rfl ?_
      refine (slot_follows right).bind fun _ => ?_
      exact (expression_follows test).bind fun value => follows_emit rfl
    case switch =>
      match left with
      | none =>
        rw [statement]
        exact follows_fail _ _
      | some discriminant =>
        rw [statement]
        refine (expression_follows discriminant).bind fun value => ?_
        refine (arms_follows value none ss).bind fun done => ?_
        exact (behind_follows done).bind fun _ => follows_emit rfl
    case separator =>
      rw [statement]
      exact (slot_follows left).bind fun _ => slot_follows right
    case sequence =>
      rw [statement]
      exact (slot_follows left).bind fun _ => slot_follows right
    case block =>
      rw [statement]
      exact statements_follows ss
    case binary op =>
      rw [statement]
      exact (expression_follows _).bind fun _ => follows_pure rfl
    case elseBranch =>
      rw [statement]
      exact follows_fail _ _
    case caseArm =>
      rw [statement]
      exact follows_fail _ _
    case defaultArm =>
      rw [statement]
      exact follows_fail _ _
    all_goals
      rw [statement]
      exact follows_pure rfl

theorem slot_follows : ∀ t : Option Tree, Follows drawn id (slot t) (slot t)
  | none => by
    rw [slot]
    exact follows_pure rfl
  | some t => by
    rw [slot]
    exact statement_follows t

theorem statements_follows : ∀ ts : List Tree, Follows drawn id (statements ts) (statements ts)
  | [] => by
    rw [statements]
    exact follows_pure rfl
  | t :: ts => by
    rw [statements]
    exact (statement_follows t).bind fun _ => statements_follows ts

theorem alternative_follows : ∀ others : List Tree,
    Follows drawn id (alternative others) (alternative others)
  | [] => by
    simp only [alternative]
    exact follows_pure rfl
  | ⟨kind, p, left, right, ss⟩ :: others => by
    cases kind
    case elseBranch =>
      match right with
      | none =>
        simp only [alternative]
        exact follows_pure rfl
      | some body =>
        rw [alternative]
        exact statement_follows body
    all_goals
      simp only [alternative]
      exact follows_pure rfl

theorem arms_follows : ∀ (value : Operand) (done : Option Label) (ts : List Tree),
    Follows drawn (Option.map (Label.raise drawn))
      (arms (value.raise drawn) (done.map (Label.raise drawn)) ts) (arms value done ts)
  | value, done, [] => by
    rw [arms, arms]
    exact follows_pure rfl
  | value, done, ⟨kind, p, left, right, ss⟩ :: others => by
    cases kind
    case caseArm =>
      match left, right with
      | none, _ =>
        rw [arms, arms]
        exact follows_fail _ _
      | some _, none =>
        rw [arms, arms]
        exact follows_fail _ _
      | some constant, some body =>
        rw [arms, arms]
        refine (expression_follows constant).bind fun x => follows_newTemporary.bind fun test => ?_
        refine follows_emit_bind rfl <| follows_newLabel.bind fun next => ?_
        refine follows_emit_bind rfl <| (statement_follows body).bind fun _ => ?_
        refine (behind_follows done).bind fun out => ?_
        refine follows_emit_bind rfl <| follows_emit_bind rfl ?_
        exact arms_follows value (some out) others
    case defaultArm =>
      match right with
      | none =>
        rw [arms, arms]
        exact follows_fail _ _
      | some body =>
        rw [arms, arms]
        refine (statement_follows body).bind fun _ => (behind_follows done).bind fun out => ?_
        exact follows_emit_bind rfl <| arms_follows value (some out) others
    all_goals
      simp only [arms]
      exact follows_fail _ _

end

end Lowering

end Quadrupler
