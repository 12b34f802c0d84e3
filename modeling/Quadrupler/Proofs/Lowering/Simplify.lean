import Quadrupler.Proofs.Compile
set_option autoImplicit false

/-!
# Simplification keeps the code

Two emitters agree when they do the same wherever both succeed.  Lowering a tree agrees with
lowering the statements that simplification makes of it, one after another.  Neither needs
to succeed when the other does: a body that holds nothing but empty statements is lost by
simplification, and a switch with an empty statement among its arms can be lowered only after
it.
-/

namespace Quadrupler

/-! ## Emitters that agree -/

namespace Emit

variable {α β : Type}

/-- Wherever both emitters succeed they do the same. -/
def Agrees (x y : Emit α) : Prop :=
  ∀ c a b, (x c).result = .ok a → (y c).result = .ok b → x c = y c

theorem agrees_refl (x : Emit α) : x.Agrees x := fun _ _ _ _ _ => rfl

theorem agrees_fail_left (e : LoweringError) (y : Emit α) : (fail e).Agrees y := by
  intro c a b hx _
  cases hx

theorem agrees_fail_right (x : Emit α) (e : LoweringError) : x.Agrees (fail e) := by
  intro c a b _ hy
  cases hy

/-- What comes next has to agree where the first emitters succeed. -/
theorem Agrees.bind_of_ok {x y : Emit α} {f g : α → Emit β} (first : x.Agrees y)
    (next : ∀ c a, (x c).result = .ok a → (y c).result = .ok a → (f a).Agrees (g a)) :
    (x >>= f).Agrees (y >>= g) := by
  intro c a b hx hy
  rcases hu : x c with ⟨_ | u, code, c₁⟩
  · simp [bind_error hu] at hx
  rcases hv : y c with ⟨_ | v, code', c₂⟩
  · simp [bind_error hv] at hy
  have same := first c u v (by rw [hu]) (by rw [hv])
  rw [hu, hv] at same
  cases same
  rw [bind_ok hu] at hx ⊢
  rw [bind_ok hv] at hy ⊢
  rw [next c u (by rw [hu]) (by rw [hv]) c₁ a b hx hy]

theorem Agrees.bind {x y : Emit α} {f g : α → Emit β} (first : x.Agrees y)
    (next : ∀ a, (f a).Agrees (g a)) : (x >>= f).Agrees (y >>= g) :=
  first.bind_of_ok fun _ a _ _ => next a

/-- Emitters that begin in the same way. -/
theorem agrees_bind {x : Emit α} {f g : α → Emit β} (next : ∀ a, (f a).Agrees (g a)) :
    (x >>= f).Agrees (x >>= g) :=
  (agrees_refl x).bind next

end Emit

namespace Lowering

open Emit Quadrupler.Tree

/-! ## Statements in a row -/

theorem statements_toList (o : Option Tree) : statements o.toList = slot o := by
  cases o with
  | none => simp [statements, slot]
  | some t => rw [Option.toList_some, statements_singleton, slot]

theorem statement_foldl {kind : Kind} (hkind : kind = .separator ∨ kind = .sequence)
    (before : Tree) (ts : List Tree) :
    statement (ts.foldl
      (fun before next =>
        { kind, location := next.location, left := some before, right := some next }) before) =
      statement before >>= fun _ => statements ts := by
  induction ts generalizing before with
  | nil =>
    simp only [List.foldl_nil, statements]
    exact bind_pure_unit.symm
  | cons t ts ih =>
    rw [List.foldl_cons, ih]
    rcases hkind with rfl | rfl <;> simp [statement, slot, statements]

/-- A tree of statements in a row is lowered as its statements are. -/
theorem slot_row {kind : Kind} (hkind : kind = .separator ∨ kind = .sequence) (ts : List Tree) :
    slot (row kind ts) = statements ts := by
  cases ts with
  | nil => simp [row, slot, statements]
  | cons t ts => rw [row, slot, statement_foldl hkind, statements]

theorem slot_chain (ts : List Tree) : slot (chain ts) = statements ts := slot_row (.inr rfl) ts

theorem statement_of_chain {ts : List Tree} {t : Tree} (h : chain ts = some t) :
    statement t = statements ts := by
  rw [← slot_chain, h, slot]

/-- The simplified tree is lowered as its statements are. -/
theorem statement_simplify (t : Tree) : statement t.simplify = statements (statementsOf t) := by
  rw [← slot_chain, simplify]
  cases chain (statementsOf t) with
  | none => simp [block, statement, statements, slot]
  | some u => simp [slot]

/-! ## Expressions -/

theorem EmitsValue.simplified {t : Tree} {c c' : Counters} {x : Operand} {code : Listing}
    (h : EmitsValue t c x code c') : t.Solid ∧ EmitsValue t.simplified c x code c' := by
  induction h with
  | number => exact ⟨⟨nofun, rfl⟩, .number⟩
  | identifier => exact ⟨⟨nofun, rfl⟩, .identifier⟩
  | binary _ _ ihLeft ihRight =>
    refine ⟨⟨nofun, rfl⟩, ?_⟩
    rw [simplified_mk, ihLeft.1.chain_eq, ihRight.1.chain_eq]
    exact .binary ihLeft.2 ihRight.2

theorem expression_agrees {t u : Tree} (h : chain (statementsOf t) = some u) :
    (expression t).Agrees (expression u) := by
  intro c x y ht _
  rcases emitted : expression t c with ⟨result, code, c'⟩
  obtain rfl : result = .ok x := by simpa [emitted] using ht
  obtain ⟨solid, simplified⟩ := (expression_eq_ok_iff.mp emitted).simplified
  obtain rfl : t.simplified = u := by simpa [h, statementsOfSlot] using solid.chain_eq.symm
  exact simplified.eq_ok.symm

theorem target_agrees (kind : Kind) (p : Location) (left : Option Tree) :
    (target kind p left).Agrees (target kind p (chain (statementsOfSlot left))) := by
  intro c name _ hx _
  rcases found : target kind p left c with ⟨result, code, c'⟩
  obtain rfl : result = .ok name := by simpa [found] using hx
  obtain ⟨⟨q, l, r, ss, rfl⟩, rfl, rfl⟩ := target_eq_ok_iff.mp found
  rw [solid_identifier.chain_eq, simplified_mk]
  rfl

/-! ## Statements -/

/-- A statement that stays one statement. -/
theorem agrees_of_solid {t : Tree} (solid : t.Solid)
    (h : (statement t).Agrees (statement t.simplified)) :
    (statement t).Agrees (statements (statementsOf t)) := by
  rw [solid.statementsOf_eq, statements_singleton]
  exact h

theorem agrees_of_chain {t u : Tree} (h : (statement t).Agrees (statements (statementsOf t)))
    (hu : chain (statementsOf t) = some u) : (statement t).Agrees (statement u) := by
  rw [statement_of_chain hu]
  exact h

/-- Where a test or a body is missing, or gets lost, there is nothing to compare. -/
theorem agrees_of_tested {kind : Kind} (h : isTested kind = true) {p : Location}
    {left right : Option Tree} {ss : List Tree}
    (hright : (slot right).Agrees (statements (statementsOfSlot right)))
    (both : ∀ test test' body body', (expression test).Agrees (expression test') →
      (statement body).Agrees (statement body') →
      (statement ⟨kind, p, some test, some body, ss⟩).Agrees
        (statement ⟨kind, p, some test', some body', simplifyAll ss⟩)) :
    (statement ⟨kind, p, left, right, ss⟩).Agrees
      (statement (simplified ⟨kind, p, left, right, ss⟩)) := by
  rw [simplified_mk]
  match left, right with
  | none, _ =>
    obtain ⟨e, fails⟩ := statement_without_test h p _ ss
    rw [fails]
    exact agrees_fail_left e _
  | some test, none =>
    obtain ⟨e, fails⟩ := statement_without_body h p test ss
    rw [fails]
    exact agrees_fail_left e _
  | some test, some body =>
    simp only [slot, statementsOfSlot] at hright ⊢
    cases htest : chain (statementsOf test) with
    | none =>
      obtain ⟨e, fails⟩ := statement_without_test h p (chain (statementsOf body)) (simplifyAll ss)
      rw [fails]
      exact agrees_fail_right _ e
    | some test' =>
      cases hbody : chain (statementsOf body) with
      | none =>
        obtain ⟨e, fails⟩ := statement_without_body h p test' (simplifyAll ss)
        rw [fails]
        exact agrees_fail_right _ e
      | some body' =>
        exact both test test' body body' (expression_agrees htest) (agrees_of_chain hright hbody)

theorem loop_agrees {test test' : Tree} {body body' advance advance' : Emit Unit}
    (htest : (expression test).Agrees (expression test')) (hbody : body.Agrees body')
    (hadvance : advance.Agrees advance') :
    (loop test body advance).Agrees (loop test' body' advance') := by
  unfold loop
  refine agrees_bind fun start => agrees_bind fun _ => ?_
  refine htest.bind fun value => agrees_bind fun done => agrees_bind fun _ => ?_
  refine hbody.bind fun _ => hadvance.bind fun _ => ?_
  exact agrees_refl _

theorem companions_of_ok {others : List Tree} {c : Counters} {u : Unit}
    (h : (companions others c).result = .ok u) : Companions others := by
  rcases checked : companions others c with ⟨result, code, c'⟩
  obtain rfl : result = .ok u := by simpa [checked] using h
  exact (companions_eq_ok_iff.mp checked).1

theorem companions_agrees (others others' : List Tree) :
    (companions others).Agrees (companions others') := by
  intro c a b h h'
  have checked := (companions_eq_ok_iff (c := c) (u := a)).mpr ⟨companions_of_ok h, rfl, rfl⟩
  have checked' := (companions_eq_ok_iff (c := c) (u := b)).mpr ⟨companions_of_ok h', rfl, rfl⟩
  rw [checked, checked']

theorem elseBody?_simplifyAll {others : List Tree} (h : Companions others) :
    elseBody? (simplifyAll others) = chain (statementsOfSlot (elseBody? others)) := by
  cases h with
  | none => rw [simplifyAll]; rfl
  | one =>
    rw [solid_elseBranch.simplifyAll_cons, simplifyAll, simplified_mk]
    rfl

theorem forLoop_agrees {p : Location} {test body test' body' first advance : Tree}
    (htest : (expression test).Agrees (expression test'))
    (hbody : (statement body).Agrees (statement body'))
    (hfirst : (statement first).Agrees (statements (statementsOf first)))
    (hadvance : (statement advance).Agrees (statements (statementsOf advance))) :
    (statement ⟨.forLoop, p, some test, some body, [first, advance]⟩).Agrees
      (statement ⟨.forLoop, p, some test', some body', simplifyAll [first, advance]⟩) := by
  rw [simplifyAll, simplifyAll, simplifyAll]
  -- Simplification drops a statement of the head or keeps it; with fewer than two, lowering fails.
  cases hfirst' : chain (statementsOf first) with
  | none =>
    obtain ⟨e, fails⟩ := statement_without_head p test' body'
      (chain (statementsOf advance)).toList (by cases chain (statementsOf advance) <;> simp)
    simp only [Option.toList_none, List.nil_append, List.append_nil, fails]
    exact agrees_fail_right _ e
  | some first' =>
    cases hadvance' : chain (statementsOf advance) with
    | none =>
      obtain ⟨e, fails⟩ := statement_without_head p test' body' [first'] (by simp)
      simp only [Option.toList_none, Option.toList_some, List.append_nil, fails]
      exact agrees_fail_right _ e
    | some advance' =>
      simp only [Option.toList_some, List.singleton_append]
      rw [statement_forLoop, statement_forLoop]
      refine (agrees_of_chain hfirst hfirst').bind fun _ => loop_agrees htest hbody ?_
      rw [slot, slot]
      exact agrees_of_chain hadvance hadvance'

theorem ifThen_agrees {p : Location} {test body test' body' : Tree} {others : List Tree}
    (htest : (expression test).Agrees (expression test'))
    (hbody : (statement body).Agrees (statement body'))
    (hother : (slot (elseBody? others)).Agrees (statements (statementsOfSlot (elseBody? others)))) :
    (statement ⟨.ifThen, p, some test, some body, others⟩).Agrees
      (statement ⟨.ifThen, p, some test', some body', simplifyAll others⟩) := by
  rw [statement, statement]
  refine (companions_agrees _ _).bind_of_ok fun c _ ok ok' => ?_
  refine htest.bind fun value => agrees_bind fun otherwise => agrees_bind fun _ => ?_
  refine hbody.bind fun _ => agrees_bind fun done => ?_
  refine agrees_bind fun _ => agrees_bind fun _ => ?_
  have alternatives : (alternative others).Agrees (alternative (simplifyAll others)) := by
    have companions := companions_of_ok ok
    rw [alternative_eq_slot companions, alternative_eq_slot (companions_of_ok ok'),
      elseBody?_simplifyAll companions, slot_chain]
    exact hother
  exact alternatives.bind fun _ => agrees_refl _

mutual

theorem statement_agrees : ∀ t : Tree, (statement t).Agrees (statements (statementsOf t))
  | ⟨kind, p, left, right, ss⟩ => by
    cases kind
    case assign =>
      refine agrees_of_solid ⟨nofun, rfl⟩ ?_
      rw [simplified_mk, statement, statement]
      refine (target_agrees .assign p left).bind fun name => ?_
      match right with
      | none => exact agrees_fail_left _ _
      | some e =>
        rw [statementsOfSlot]
        cases he : chain (statementsOf e) with
        | none => exact agrees_fail_right _ _
        | some e' => exact (expression_agrees he).bind fun _ => agrees_refl _
    case step op =>
      refine agrees_of_solid ⟨nofun, rfl⟩ ?_
      rw [simplified_mk, statement, statement]
      exact (target_agrees (.step op) p left).bind fun _ => agrees_refl _
    case returning =>
      refine agrees_of_solid ⟨nofun, rfl⟩ ?_
      rw [simplified_mk]
      match right with
      | none =>
        rw [statement]
        exact agrees_fail_left _ _
      | some e =>
        rw [statementsOfSlot]
        cases he : chain (statementsOf e) with
        | none =>
          rw [statement, statement]
          exact agrees_fail_right _ _
        | some e' =>
          rw [statement, statement]
          exact (expression_agrees he).bind fun _ => agrees_refl _
    case ifThen =>
      refine agrees_of_solid ⟨nofun, rfl⟩ (agrees_of_tested rfl (slot_agrees right) ?_)
      intro test test' body body' htest hbody
      exact ifThen_agrees htest hbody (elseBody_agrees ss)
    case whileLoop =>
      refine agrees_of_solid ⟨nofun, rfl⟩ (agrees_of_tested rfl (slot_agrees right) ?_)
      intro test test' body body' htest hbody
      rw [statement_whileLoop, statement_whileLoop]
      exact loop_agrees htest hbody (agrees_refl _)
    case forLoop =>
      refine agrees_of_solid ⟨nofun, rfl⟩ (agrees_of_tested rfl (slot_agrees right) ?_)
      intro test test' body body' htest hbody
      match ss with
      | [first, advance] =>
        exact forLoop_agrees htest hbody (statement_agrees first) (statement_agrees advance)
      | [] | [_] | _ :: _ :: _ :: _ =>
        simp only [statement]
        exact agrees_fail_left _ _
    case doLoop =>
      refine agrees_of_solid ⟨nofun, rfl⟩ (agrees_of_tested rfl (slot_agrees right) ?_)
      intro test test' body body' htest hbody
      rw [statement, statement]
      refine agrees_bind fun start => agrees_bind fun _ => hbody.bind fun _ => ?_
      exact htest.bind fun _ => agrees_refl _
    case switch =>
      refine agrees_of_solid ⟨nofun, rfl⟩ ?_
      rw [simplified_mk]
      match left with
      | none =>
        rw [statement]
        exact agrees_fail_left _ _
      | some e =>
        rw [statementsOfSlot]
        cases he : chain (statementsOf e) with
        | none =>
          rw [statement, statement]
          exact agrees_fail_right _ _
        | some e' =>
          rw [statement, statement]
          refine (expression_agrees he).bind fun value => ?_
          exact (arms_agrees value none ss).bind fun _ => agrees_refl _
    case separator =>
      rw [statement, statementsOf, statements_append]
      exact (slot_agrees left).bind fun _ => slot_agrees right
    case sequence =>
      rw [statement, statementsOf, statements_append]
      exact (slot_agrees left).bind fun _ => slot_agrees right
    case block =>
      refine agrees_of_solid ⟨nofun, rfl⟩ ?_
      rw [simplified_mk, statement, statement]
      exact statements_agrees ss
    case empty =>
      rw [statement, statementsOf, statements]
      exact agrees_refl _
    case binary op =>
      refine agrees_of_solid ⟨nofun, rfl⟩ ?_
      have solid : Solid ⟨.binary op, p, left, right, ss⟩ := ⟨nofun, rfl⟩
      have operands := expression_agrees solid.chain_eq
      rw [simplified_mk] at operands ⊢
      rw [statement, statement]
      exact operands.bind fun _ => agrees_refl _
    case number text =>
      refine agrees_of_solid ⟨nofun, rfl⟩ ?_
      rw [simplified_mk, statement, statement]
      exact agrees_refl _
    case identifier name =>
      refine agrees_of_solid ⟨nofun, rfl⟩ ?_
      rw [simplified_mk, statement, statement]
      exact agrees_refl _
    all_goals
      rw [statement]
      exact agrees_fail_left _ _

theorem slot_agrees : ∀ t : Option Tree, (slot t).Agrees (statements (statementsOfSlot t))
  | none => by
    rw [slot, statementsOfSlot, statements]
    exact agrees_refl _
  | some t => by
    rw [slot, statementsOfSlot]
    exact statement_agrees t

theorem statements_agrees : ∀ ts : List Tree,
    (statements ts).Agrees (statements (simplifyAll ts))
  | [] => by
    rw [simplifyAll]
    exact agrees_refl _
  | t :: ts => by
    rw [simplifyAll, statements_append, statements_toList, slot_chain, statements]
    exact (statement_agrees t).bind fun _ => statements_agrees ts

theorem elseBody_agrees : ∀ others : List Tree,
    (slot (elseBody? others)).Agrees (statements (statementsOfSlot (elseBody? others)))
  | [] => slot_agrees none
  | ⟨kind, p, left, right, ss⟩ :: others => by
    cases kind
    case elseBranch => exact slot_agrees right
    all_goals exact slot_agrees none

theorem arms_agrees : ∀ (value : Operand) (done : Option Label) (ts : List Tree),
    (arms value done ts).Agrees (arms value done (simplifyAll ts))
  | value, done, [] => by
    rw [simplifyAll]
    exact agrees_refl _
  | value, done, ⟨kind, p, left, right, ss⟩ :: others => by
    cases kind
    case caseArm =>
      have solid : Solid ⟨.caseArm, p, left, right, ss⟩ := ⟨nofun, rfl⟩
      rw [solid.simplifyAll_cons, simplified_mk]
      match left, right with
      | none, _ =>
        rw [arms]
        exact agrees_fail_left _ _
      | some _, none =>
        rw [arms]
        exact agrees_fail_left _ _
      | some e, some body =>
        rw [statementsOfSlot, statementsOfSlot]
        cases he : chain (statementsOf e) with
        | none =>
          simp only [arms]
          exact agrees_fail_right _ _
        | some e' =>
          cases hbody : chain (statementsOf body) with
          | none =>
            simp only [arms]
            exact agrees_fail_right _ _
          | some body' =>
            rw [arms, arms]
            refine (expression_agrees he).bind fun constant => ?_
            refine agrees_bind fun test => agrees_bind fun _ => ?_
            refine agrees_bind fun next => agrees_bind fun _ => ?_
            refine (agrees_of_chain (statement_agrees body) hbody).bind fun _ => ?_
            refine agrees_bind fun out => agrees_bind fun _ => agrees_bind fun _ => ?_
            exact arms_agrees value (some out) others
    case defaultArm =>
      have solid : Solid ⟨.defaultArm, p, left, right, ss⟩ := ⟨nofun, rfl⟩
      rw [solid.simplifyAll_cons, simplified_mk]
      match right with
      | none =>
        rw [arms]
        exact agrees_fail_left _ _
      | some body =>
        rw [statementsOfSlot]
        cases hbody : chain (statementsOf body) with
        | none =>
          simp only [arms]
          exact agrees_fail_right _ _
        | some body' =>
          rw [arms, arms]
          refine (agrees_of_chain (statement_agrees body) hbody).bind fun _ => ?_
          refine agrees_bind fun out => agrees_bind fun _ => ?_
          exact arms_agrees value (some out) others
    all_goals
      simp only [arms]
      exact agrees_fail_left _ _

end

end Lowering

/-! ## Listings -/

theorem lower_eq_ok_iff_statement {t : Tree} {listing : Listing} :
    lower t = .ok listing ↔ ∃ c, Lowering.statement t .zero = ⟨.ok (), listing, c⟩ := by
  simp only [lower_eq_ok_iff, Lowering.statement_eq_ok_iff]

theorem lower_simplify_eq {t : Tree} {a b : Listing} (ha : lower t = .ok a)
    (hb : lower t.simplify = .ok b) : a = b := by
  obtain ⟨c, hc⟩ := lower_eq_ok_iff_statement.mp ha
  obtain ⟨c', hc'⟩ := lower_eq_ok_iff_statement.mp hb
  rw [Lowering.statement_simplify] at hc'
  have same := Lowering.statement_agrees t .zero () () (by rw [hc]) (by rw [hc'])
  rw [hc, hc'] at same
  cases same
  rfl

/-- Where a tree can be lowered as it is and simplified, both give the same listing; and what
has been read can be lowered in both ways. -/
theorem lower_simplify :
    (∀ (t : Tree) (a b : Listing), lower t = .ok a → lower t.simplify = .ok b → a = b) ∧
      ∀ (tokens : List Token) (t : Tree), parseTokens tokens = .ok t →
        lower t = lower t.simplify := by
  refine ⟨fun t a b ha hb => lower_simplify_eq ha hb, fun tokens t h => ?_⟩
  obtain ⟨⟨a, ha⟩, b, hb⟩ := exists_lower_of_parseTokens h
  rw [ha, hb, lower_simplify_eq ha hb]

/-- Simplification changes the tree of `;{;}x++;` and not its code. -/
theorem lower_simplify_emptyStatements :
    let tokens : List Token :=
      [⟨.delimiter, ";", ⟨1, 1⟩⟩, ⟨.delimiter, "\x7b", ⟨1, 2⟩⟩, ⟨.delimiter, ";", ⟨1, 3⟩⟩,
       ⟨.delimiter, "\x7d", ⟨1, 4⟩⟩, ⟨.identifier, "x", ⟨1, 5⟩⟩, ⟨.operator, "++", ⟨1, 6⟩⟩,
       ⟨.delimiter, ";", ⟨1, 8⟩⟩]
    let t : Tree :=
      { kind := .separator, location := ⟨1, 5⟩,
        left := some { kind := .separator, location := ⟨1, 2⟩,
                       left := some { kind := .empty, location := ⟨1, 1⟩ },
                       right := some (.block [{ kind := .empty, location := ⟨1, 3⟩ }] ⟨1, 2⟩) },
        right := some { kind := .step .increment, location := ⟨1, 5⟩,
                        left := some (.identifier "x" ⟨1, 5⟩) } }
    ∃ a b, parseTokens tokens = .ok t ∧ t.simplify ≠ t ∧ lower t = .ok a ∧
      lower t.simplify = .ok b ∧ a = b ∧ lower t = lower t.simplify := by
  intro tokens t
  have read : parseTokens tokens = .ok t := (parseTokens_eq_settle tokens).trans rfl
  have raw : lower t = .ok _ := rfl
  have simplified : lower t.simplify = .ok _ := rfl
  exact ⟨_, _, read, by decide, raw, simplified, lower_simplify.1 t _ _ raw simplified,
    lower_simplify.2 tokens t read⟩

end Quadrupler
