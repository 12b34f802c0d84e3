import Mathlib.Data.List.Dedup
import Mathlib.Data.List.Nodup
import Mathlib.Data.List.Perm.Basic
import Quadrupler.Proofs.Lowering.Meaning
set_option autoImplicit false

/-!
# Names are numbered in the order of the code

A temporary is drawn for the quadruple that assigns it, and a label for the first quadruple
that names it.  So the counters at a place of the code say which names stand before it:
`Numbered` follows the counters along the code, one quadruple after another.  Every emitter
keeps to it, whether it succeeds or fails.
-/

namespace Quadrupler

/-! ## The names of a quadruple -/

namespace Quadruple

/-- The temporaries of a quadruple, read or assigned. -/
def temporaries (q : Quadruple) : List Temporary := q.reads ++ q.writes?.toList

/-- The labels of a quadruple, defined or in one of its operands. -/
def labels (q : Quadruple) : List Label :=
  q.label?.toList ++ q.first.label?.toList ++ q.second.label?.toList ++ q.result.label?.toList

theorem target?_mem_labels {q : Quadruple} {l : Label} (h : q.target? = some l) : l ∈ q.labels := by
  unfold target? at h
  split at h
  · simp [labels, h]
  · cases h

/-- What a quadruple draws. -/
inductive Draws (q : Quadruple) (c : Counters) : Counters → Prop where
  | nothing : q.writes? = none → (∀ l ∈ q.labels, l.index < c.labels) → Draws q c c
  | temporary : q.writes? = some c.temporary → q.labels = [] → Draws q c c.drawTemporary
  | label : q.writes? = none → q.labels = [c.label] → Draws q c c.drawLabel

/-- The quadruple reads what has been drawn before it and draws what else it names. -/
def Continues (q : Quadruple) (c c' : Counters) : Prop :=
  (∀ t ∈ q.reads, t.index < c.temporaries) ∧ q.Draws c c'

/-- The quadruple names one label and assigns nothing. -/
def NamesLabel (q : Quadruple) (l : Label) (c : Counters) : Prop :=
  (∀ t ∈ q.reads, t.index < c.temporaries) ∧ q.writes? = none ∧ q.labels = [l]

end Quadruple

theorem Operand.below_temporary (c : Counters) :
    (Operand.temporary c.temporary).Below c.drawTemporary.temporaries :=
  Nat.lt_succ_self _

theorem Operand.Below.temporary_lt {x : Operand} {n : Nat} (h : x.Below n) :
    ∀ t ∈ x.temporary?.toList, t.index < n := by
  cases x with
  | temporary t =>
    intro u hu
    obtain rfl : u = t := by simpa [Operand.temporary?] using hu
    exact h
  | _ => nofun

theorem Operand.Below.label?_eq {x : Operand} {n : Nat} (h : x.Below n) : x.label? = none := by
  cases x with
  | label l => exact h.elim
  | _ => rfl

namespace Quadruple

variable {c : Counters} {x y : Operand} {l : Label}

theorem continues_assign (h : x.Below c.temporaries) (name : String) :
    (assign x name).Continues c c := by
  refine ⟨?_, .nothing rfl ?_⟩
  · simpa [reads, assign, Operand.temporary?] using h.temporary_lt
  · simp only [labels, assign, h.label?_eq]
    intro l impossible
    cases impossible

theorem continues_returning (h : x.Below c.temporaries) : (returning x).Continues c c := by
  refine ⟨?_, .nothing rfl ?_⟩
  · simpa [reads, returning, Operand.temporary?] using h.temporary_lt
  · simp only [labels, returning, h.label?_eq]
    intro l impossible
    cases impossible

theorem continues_binary (op : BinaryOp) (hx : x.Below c.temporaries) (hy : y.Below c.temporaries) :
    (binary op x y c.temporary).Continues c c.drawTemporary := by
  refine ⟨?_, .temporary rfl ?_⟩
  · intro t ht
    rcases List.mem_append.mp ht with ht | ht
    · exact hx.temporary_lt t ht
    · exact hy.temporary_lt t ht
  · simp only [labels, binary, hx.label?_eq, hy.label?_eq]
    rfl

theorem namesLabel_ifFalse (h : x.Below c.temporaries) (l : Label) :
    (ifFalse x l).NamesLabel l c := by
  refine ⟨?_, rfl, ?_⟩
  · simpa [reads, ifFalse, Operand.temporary?] using h.temporary_lt
  · simp only [labels, ifFalse, h.label?_eq]
    rfl

theorem namesLabel_ifTrue (h : x.Below c.temporaries) (l : Label) :
    (ifTrue x l).NamesLabel l c := by
  refine ⟨?_, rfl, ?_⟩
  · simpa [reads, ifTrue, Operand.temporary?] using h.temporary_lt
  · simp only [labels, ifTrue, h.label?_eq]
    rfl

theorem namesLabel_goto (l : Label) : (goto l).NamesLabel l c := ⟨nofun, rfl, rfl⟩

theorem namesLabel_label (l : Label) : (label l).NamesLabel l c := ⟨nofun, rfl, rfl⟩

theorem NamesLabel.known {q : Quadruple} (h : q.NamesLabel l c) (before : l.index < c.labels) :
    q.Continues c c := by
  refine ⟨h.1, .nothing h.2.1 ?_⟩
  simpa [h.2.2] using before

theorem NamesLabel.drawn {q : Quadruple} (h : q.NamesLabel c.label c) :
    q.Continues c c.drawLabel :=
  ⟨h.1, .label h.2.1 h.2.2⟩

/-- The label behind a switch is drawn where it is needed first. -/
theorem NamesLabel.behind {q : Quadruple} {done : Option Label}
    (h : q.NamesLabel (c.behind done) c) (before : ∀ l ∈ done, l.index < c.labels) :
    q.Continues c (c.drawBehind done) := by
  cases done with
  | none => exact NamesLabel.drawn h
  | some l => exact NamesLabel.known h (before l rfl)

end Quadruple

/-! ## Code that numbers its names -/

/-- How many temporaries and how many labels occur in code. -/
def Listing.names (code : Listing) : Counters :=
  ⟨(code.flatMap Quadruple.temporaries).dedup.length, (code.flatMap Quadruple.labels).dedup.length⟩

/-- The counters before and after code that reads only what has been drawn and draws its
names one after another. -/
inductive Listing.Numbered : Counters → Listing → Counters → Prop where
  | nil {c : Counters} : Numbered c [] c
  | cons {q : Quadruple} {code : Listing} {c c₁ c₂ : Counters} :
      q.Continues c c₁ → Numbered c₁ code c₂ → Numbered c (q :: code) c₂

instance : LE Counters := ⟨fun c c' => c.temporaries ≤ c'.temporaries ∧ c.labels ≤ c'.labels⟩

namespace Counters

theorem le_refl (c : Counters) : c ≤ c := ⟨Nat.le_refl _, Nat.le_refl _⟩

theorem le_trans {a b c : Counters} (h : a ≤ b) (h' : b ≤ c) : a ≤ c :=
  ⟨Nat.le_trans h.1 h'.1, Nat.le_trans h.2 h'.2⟩

theorem le_drawTemporary (c : Counters) : c ≤ c.drawTemporary := ⟨Nat.le_succ _, Nat.le_refl _⟩

theorem le_drawLabel (c : Counters) : c ≤ c.drawLabel := ⟨Nat.le_refl _, Nat.le_succ _⟩

end Counters

theorem Quadruple.Continues.le {q : Quadruple} {c c' : Counters} (h : q.Continues c c') :
    c ≤ c' := by
  cases h.2 with
  | nothing => exact c.le_refl
  | temporary => exact c.le_drawTemporary
  | label => exact c.le_drawLabel

theorem Quadruple.Continues.temporary_lt_iff {q : Quadruple} {c c' : Counters}
    (h : q.Continues c c') (t : Temporary) :
    t.index < c'.temporaries ↔ t.index < c.temporaries ∨ t ∈ q.temporaries := by
  obtain ⟨reads, draws⟩ := h
  have known : t ∈ q.reads → t.index < c.temporaries := reads t
  cases draws with
  | nothing writes _ => simp [temporaries, writes, or_iff_left_of_imp known]
  | label writes _ => simp [temporaries, writes, or_iff_left_of_imp known, Counters.drawLabel]
  | temporary writes _ =>
    have next : c.temporary = t ↔ t.index = c.temporaries := by
      cases t
      simp [Counters.temporary, eq_comm]
    simp only [temporaries, writes, List.mem_append, Option.mem_toList, Option.some.injEq, next,
      ← or_assoc, or_iff_left_of_imp known, Counters.drawTemporary]
    omega

theorem Quadruple.Continues.label_lt_iff {q : Quadruple} {c c' : Counters}
    (h : q.Continues c c') (l : Label) :
    l.index < c'.labels ↔ l.index < c.labels ∨ l ∈ q.labels := by
  cases h.2 with
  | nothing _ known => exact (or_iff_left_of_imp (known l)).symm
  | temporary _ none => simp [none, Counters.drawTemporary]
  | label _ one =>
    have next : l = c.label ↔ l.index = c.labels := by
      cases l
      simp [Counters.label]
    simp only [one, List.mem_singleton, next, Counters.drawLabel]
    omega

namespace Listing.Numbered

theorem le {code : Listing} {c c' : Counters} (h : Numbered c code c') : c ≤ c' := by
  induction h with
  | nil => exact Counters.le_refl _
  | cons continues _ ih => exact Counters.le_trans continues.le ih

theorem append {code code' : Listing} {a b c : Counters} (h : Numbered a code b)
    (h' : Numbered b code' c) : Numbered a (code ++ code') c := by
  induction h with
  | nil => exact h'
  | cons continues _ ih => exact .cons continues (ih h')

theorem temporary_lt_iff {code : Listing} {c c' : Counters} (h : Numbered c code c')
    (t : Temporary) :
    t.index < c'.temporaries ↔
      t.index < c.temporaries ∨ t ∈ code.flatMap Quadruple.temporaries := by
  induction h with
  | nil => simp
  | cons continues _ ih =>
    rw [ih, continues.temporary_lt_iff, List.flatMap_cons, List.mem_append, or_assoc]

theorem label_lt_iff {code : Listing} {c c' : Counters} (h : Numbered c code c')
    (l : Label) :
    l.index < c'.labels ↔ l.index < c.labels ∨ l ∈ code.flatMap Quadruple.labels := by
  induction h with
  | nil => simp
  | cons continues _ ih =>
    rw [ih, continues.label_lt_iff, List.flatMap_cons, List.mem_append, or_assoc]

/-- Names that are numbered without a gap are as many as the numbers. -/
theorem length_dedup_of_numbered {α : Type} [DecidableEq α] (index : α → Nat) (name : Nat → α)
    (inverse : ∀ a, name (index a) = a) (inverse' : ∀ n, index (name n) = n) {names : List α}
    {count : Nat} (h : ∀ a, index a < count ↔ a ∈ names) : names.dedup.length = count := by
  have distinct : ((List.range count).map name).Nodup :=
    List.nodup_range.map (Function.LeftInverse.injective inverse')
  have same : names.dedup.Perm ((List.range count).map name) := by
    refine (List.perm_ext_iff_of_nodup (List.nodup_dedup _) distinct).mpr fun a => ?_
    rw [List.mem_dedup, ← h a]
    constructor
    · intro below
      exact List.mem_map.mpr ⟨index a, List.mem_range.mpr below, inverse a⟩
    · intro listed
      obtain ⟨n, hn, rfl⟩ := List.mem_map.mp listed
      rw [inverse']
      exact List.mem_range.mp hn
  simpa using same.length_eq

/-- Numbered code draws as many names as occur in it. -/
theorem names_eq {code : Listing} {c : Counters} (h : Numbered .zero code c) :
    code.names = c := by
  have temporaries : (code.flatMap Quadruple.temporaries).dedup.length = c.temporaries :=
    length_dedup_of_numbered Temporary.index Temporary.mk (fun _ => rfl) (fun _ => rfl) fun t => by
      simpa [Counters.zero] using h.temporary_lt_iff t
  have labels : (code.flatMap Quadruple.labels).dedup.length = c.labels :=
    length_dedup_of_numbered Label.index Label.mk (fun _ => rfl) (fun _ => rfl) fun l => by
      simpa [Counters.zero] using h.label_lt_iff l
  rw [names, temporaries, labels]

end Listing.Numbered

/-! ## Emitters that number their names -/

namespace Emit

open Listing

variable {α β : Type}

/-- From these counters on, the emitter numbers the names of its code, and its result, if it
has one, stands so to the counters after it. -/
def Numbers (x : Emit α) (c : Counters) (after : α → Counters → Prop) : Prop :=
  Numbered c (x c).code (x c).counters ∧ ∀ a, (x c).result = .ok a → after a (x c).counters

variable {c : Counters} {P : α → Counters → Prop} {Q : β → Counters → Prop}

theorem Numbers.numbered {x : Emit α} {result : Except LoweringError α} {code : Listing}
    {c' : Counters} (h : x.Numbers c P) (done : x c = ⟨result, code, c'⟩) :
    Numbered c code c' := by
  have all := h.1
  rwa [done] at all

theorem numbers_pure {a : α} (h : P a c) : (pure a : Emit α).Numbers c P := by
  refine ⟨.nil, fun b hb => ?_⟩
  cases hb
  exact h

theorem numbers_fail (e : LoweringError) : (fail e : Emit α).Numbers c P :=
  ⟨.nil, nofun⟩

theorem Numbers.bind {x : Emit α} {f : α → Emit β} (first : x.Numbers c P)
    (next : ∀ a c', c ≤ c' → P a c' → (f a).Numbers c' Q) : (x >>= f).Numbers c Q := by
  unfold Numbers at first ⊢
  rcases hx : x c with ⟨_ | a, code, c'⟩
  · rw [hx] at first
    rw [bind_error hx]
    exact ⟨first.1, nofun⟩
  · rw [hx] at first
    rw [bind_ok hx]
    have second := next a c' first.1.le (first.2 a rfl)
    exact ⟨first.1.append second.1, second.2⟩

/-- A name and the quadruple it is drawn for. -/
theorem numbers_draw {x : Emit α} {q : α → Quadruple} {f : α → Unit → Emit β} {a : α}
    {c' : Counters} (drawn : x c = ⟨.ok a, [], c'⟩) (continues : (q a).Continues c c')
    (next : (f a ()).Numbers c' Q) : (x >>= fun a => emit (q a) >>= f a).Numbers c Q := by
  unfold Numbers
  rw [bind_ok drawn, bind_ok (emit_apply _ _)]
  exact ⟨.cons continues next.1, next.2⟩

theorem numbers_emit_bind {q : Quadruple} {f : Unit → Emit β} (continues : q.Continues c c)
    (next : (f ()).Numbers c Q) : (emit q >>= f).Numbers c Q := by
  unfold Numbers
  rw [bind_ok (emit_apply _ _)]
  exact ⟨.cons continues next.1, next.2⟩

theorem numbers_emit {q : Quadruple} {P : Unit → Counters → Prop} (continues : q.Continues c c)
    (h : P () c) : (emit q).Numbers c P :=
  ⟨.cons continues .nil, fun _ _ => h⟩

end Emit

namespace Lowering

open Emit

variable {α : Type} {c : Counters}

/-- Nothing is asked of the result. -/
def anyResult (_ : Unit) (_ : Counters) : Prop := True

theorem numbers_missing (kind : Tree.Kind) (p : Location) (role : Role)
    {P : α → Counters → Prop} : (missing kind p role).Numbers c P :=
  numbers_fail _

theorem numbers_misplaced (kind : Tree.Kind) (p : Location) (context : Context)
    {P : α → Counters → Prop} : (misplaced kind p context).Numbers c P :=
  numbers_fail _

theorem target_numbers (kind : Tree.Kind) (p : Location) (slot : Option Tree) (c : Counters) :
    (target kind p slot).Numbers c fun _ _ => True := by
  unfold target
  split
  · exact numbers_missing _ _ _
  · exact numbers_pure trivial
  · exact numbers_fail _

theorem companions_numbers (others : List Tree) (c : Counters) :
    (companions others).Numbers c anyResult := by
  unfold companions
  split
  · exact numbers_pure trivial
  · exact numbers_missing _ _ _
  · split
    · exact numbers_pure trivial
    · exact numbers_misplaced _ _ _
  · exact numbers_misplaced _ _ _

/-- The operand of an expression is a name or has been drawn. -/
theorem expression_numbers : ∀ (t : Tree) (c : Counters),
    (expression t).Numbers c fun value c' => value.Below c'.temporaries
  | ⟨kind, p, left, right, ss⟩, c => by
    cases kind
    case number text =>
      rw [expression]
      exact numbers_pure trivial
    case identifier name =>
      rw [expression]
      exact numbers_pure trivial
    case binary op =>
      cases left with
      | none =>
        rw [expression]
        exact numbers_missing _ _ _
      | some left =>
        rw [expression]
        refine (expression_numbers left c).bind fun x c₁ _ hx => ?_
        cases right with
        | none => exact numbers_missing _ _ _
        | some right =>
          refine (expression_numbers right c₁).bind fun y c₂ le hy => ?_
          refine numbers_draw (newTemporary_apply c₂) ?_ (numbers_pure (Operand.below_temporary c₂))
          exact Quadruple.continues_binary op (hx.mono le.1) hy
    all_goals
      simp only [expression]
      exact numbers_misplaced _ _ _

/-- The label has been drawn. -/
def Drawn (done : Option Label) (c : Counters) : Prop := ∀ l ∈ done, l.index < c.labels

theorem Drawn.mono {done : Option Label} {c c' : Counters} (h : Drawn done c) (le : c ≤ c') :
    Drawn done c' :=
  fun l hl => Nat.lt_of_lt_of_le (h l hl) le.2

theorem drawn_behind {done : Option Label} {c : Counters} (h : Drawn done c) :
    Drawn (some (c.behind done)) (c.drawBehind done) := by
  rintro l ⟨⟩
  cases done with
  | none => exact Nat.lt_succ_self _
  | some l => exact h l rfl

theorem behind_apply (done : Option Label) (c : Counters) :
    behind done c = ⟨.ok (c.behind done), [], c.drawBehind done⟩ := by
  cases done <;> rfl

/-- A loop numbers its names if its parts do. -/
theorem loop_numbers {test : Tree} {body advance : Emit Unit}
    (hbody : ∀ c, body.Numbers c anyResult) (hadvance : ∀ c, advance.Numbers c anyResult)
    (c : Counters) : (loop test body advance).Numbers c anyResult := by
  unfold loop
  refine numbers_draw (newLabel_apply c) (Quadruple.namesLabel_label _).drawn ?_
  refine (expression_numbers test _).bind fun value c₁ le₁ below => ?_
  refine numbers_draw (newLabel_apply c₁) (Quadruple.namesLabel_ifFalse below _).drawn ?_
  refine (hbody _).bind fun _ c₂ le₂ _ => ?_
  refine (hadvance _).bind fun _ c₃ le₃ _ => ?_
  have done : c₁.labels < c₃.labels := Nat.le_trans le₂.2 le₃.2
  have start : c.labels < c₃.labels := Nat.lt_of_le_of_lt (Nat.le_of_succ_le le₁.2) done
  refine numbers_emit_bind ((Quadruple.namesLabel_goto _).known start) ?_
  exact numbers_emit ((Quadruple.namesLabel_label _).known done) trivial

mutual

theorem statement_numbers : ∀ (t : Tree) (c : Counters), (statement t).Numbers c anyResult
  | ⟨kind, p, left, right, ss⟩, c => by
    cases kind
    case assign =>
      rw [statement]
      refine (target_numbers _ _ _ c).bind fun name c₁ _ _ => ?_
      match right with
      | none => exact numbers_missing _ _ _
      | some right =>
        refine (expression_numbers right c₁).bind fun value c₂ _ below => ?_
        exact numbers_emit (Quadruple.continues_assign below name) trivial
    case step op =>
      rw [statement]
      refine (target_numbers _ _ _ c).bind fun name c₁ _ _ => ?_
      refine numbers_draw (newTemporary_apply c₁)
        (Quadruple.continues_binary _ trivial trivial) ?_
      exact numbers_emit (Quadruple.continues_assign (Operand.below_temporary c₁) name) trivial
    case returning =>
      match right with
      | none =>
        rw [statement]
        exact numbers_missing _ _ _
      | some right =>
        rw [statement]
        refine (expression_numbers right c).bind fun value c₁ _ below => ?_
        exact numbers_emit (Quadruple.continues_returning below) trivial
    case ifThen =>
      refine statement_tested (P := (Numbers · c anyResult)) numbers_fail rfl ?_
      intro test body hbody
      rw [statement, hbody]
      refine (companions_numbers ss c).bind fun _ c₁ _ _ => ?_
      refine (expression_numbers test c₁).bind fun value c₂ _ below => ?_
      refine numbers_draw (newLabel_apply c₂) (Quadruple.namesLabel_ifFalse below _).drawn ?_
      refine (slot_numbers right _).bind fun _ c₃ le₃ _ => ?_
      refine numbers_draw (newLabel_apply c₃) (Quadruple.namesLabel_goto _).drawn ?_
      have otherwise : c₂.labels < c₃.labels + 1 := Nat.lt_succ_of_lt le₃.2
      refine numbers_emit_bind ((Quadruple.namesLabel_label _).known otherwise) ?_
      refine (alternative_numbers ss _).bind fun _ c₄ le₄ _ => ?_
      exact numbers_emit ((Quadruple.namesLabel_label _).known le₄.2) trivial
    case whileLoop =>
      refine statement_tested (P := (Numbers · c anyResult)) numbers_fail rfl ?_
      intro test body hbody
      rw [statement_whileLoop]
      exact loop_numbers (hbody ▸ slot_numbers right) (slot_numbers none) c
    case forLoop =>
      refine statement_tested (P := (Numbers · c anyResult)) numbers_fail rfl ?_
      intro test body hbody
      match ss with
      | [first, advance] =>
        rw [statement_forLoop]
        refine (statement_numbers first c).bind fun _ c₁ _ _ => ?_
        exact loop_numbers (hbody ▸ slot_numbers right) (slot_numbers (some advance)) c₁
      | [] | [_] | _ :: _ :: _ :: _ =>
        simp only [statement]
        exact numbers_missing _ _ _
    case doLoop =>
      refine statement_tested (P := (Numbers · c anyResult)) numbers_fail rfl ?_
      intro test body hbody
      rw [statement, hbody]
      refine numbers_draw (newLabel_apply c) (Quadruple.namesLabel_label _).drawn ?_
      refine (slot_numbers right _).bind fun _ c₁ le₁ _ => ?_
      refine (expression_numbers test c₁).bind fun value c₂ le₂ below => ?_
      have start : c.labels < c₂.labels := Nat.le_trans le₁.2 le₂.2
      exact numbers_emit ((Quadruple.namesLabel_ifTrue below _).known start) trivial
    case switch =>
      match left with
      | none =>
        rw [statement]
        exact numbers_missing _ _ _
      | some discriminant =>
        rw [statement]
        refine (expression_numbers discriminant c).bind fun value c₁ _ below => ?_
        refine (arms_numbers value none ss c₁ below nofun).bind fun done c₂ _ drawn => ?_
        have last := numbers_draw (q := .label) (f := fun _ => pure) (Q := anyResult)
          (behind_apply done c₂) ((Quadruple.namesLabel_label _).behind drawn)
          (numbers_pure trivial)
        simpa using last
    case separator =>
      rw [statement]
      exact (slot_numbers left c).bind fun _ c₁ _ _ => slot_numbers right c₁
    case sequence =>
      rw [statement]
      exact (slot_numbers left c).bind fun _ c₁ _ _ => slot_numbers right c₁
    case block =>
      rw [statement]
      exact statements_numbers ss c
    case binary op =>
      rw [statement]
      exact (expression_numbers _ c).bind fun _ _ _ _ => numbers_pure trivial
    case elseBranch =>
      rw [statement]
      exact numbers_misplaced _ _ _
    case caseArm =>
      rw [statement]
      exact numbers_misplaced _ _ _
    case defaultArm =>
      rw [statement]
      exact numbers_misplaced _ _ _
    all_goals
      rw [statement]
      exact numbers_pure trivial

theorem slot_numbers : ∀ (t : Option Tree) (c : Counters), (slot t).Numbers c anyResult
  | none, c => by
    rw [slot]
    exact numbers_pure trivial
  | some t, c => by
    rw [slot]
    exact statement_numbers t c

theorem statements_numbers : ∀ (ts : List Tree) (c : Counters), (statements ts).Numbers c anyResult
  | [], c => by
    rw [statements]
    exact numbers_pure trivial
  | t :: ts, c => by
    rw [statements]
    exact (statement_numbers t c).bind fun _ c₁ _ _ => statements_numbers ts c₁

theorem alternative_numbers : ∀ (others : List Tree) (c : Counters),
    (alternative others).Numbers c anyResult
  | [], c => by
    rw [alternative]
    · exact numbers_pure trivial
    · simp
  | ⟨kind, p, left, right, ss⟩ :: others, c => by
    cases kind
    case elseBranch =>
      match right with
      | none =>
        rw [alternative]
        · exact numbers_pure trivial
        · simp
      | some body =>
        rw [alternative]
        exact statement_numbers body c
    all_goals
      simp only [alternative]
      exact numbers_pure trivial

theorem arms_numbers : ∀ (value : Operand) (done : Option Label) (ts : List Tree) (c : Counters),
    value.Below c.temporaries → Drawn done c → (arms value done ts).Numbers c Drawn
  | value, done, [], c => by
    intro _ drawn
    rw [arms]
    exact numbers_pure drawn
  | value, done, ⟨kind, p, left, right, ss⟩ :: others, c => by
    intro below drawn
    cases kind
    case caseArm =>
      match left, right with
      | none, _ =>
        rw [arms]
        exact numbers_missing _ _ _
      | some _, none =>
        rw [arms]
        exact numbers_missing _ _ _
      | some constant, some body =>
        rw [arms]
        refine (expression_numbers constant c).bind fun x c₁ le₁ hx => ?_
        refine numbers_draw (newTemporary_apply c₁)
          (Quadruple.continues_binary _ (below.mono le₁.1) hx) ?_
        refine numbers_draw (newLabel_apply _)
          (Quadruple.namesLabel_ifFalse (Operand.below_temporary c₁) _).drawn ?_
        refine (statement_numbers body _).bind fun _ c₂ le₂ _ => ?_
        have le : c ≤ c₂ := Counters.le_trans le₁ (Counters.le_trans
          (Counters.le_trans c₁.le_drawTemporary c₁.drawTemporary.le_drawLabel) le₂)
        have out := drawn.mono le
        refine numbers_draw (behind_apply done c₂) ((Quadruple.namesLabel_goto _).behind out) ?_
        have next : c₁.labels < (c₂.drawBehind done).labels := by
          cases done with
          | none => exact Nat.lt_succ_of_lt le₂.2
          | some _ => exact le₂.2
        refine numbers_emit_bind ((Quadruple.namesLabel_label _).known next) ?_
        refine arms_numbers value _ others _ ?_ (drawn_behind out)
        rw [temporaries_drawBehind]
        exact below.mono le.1
    case defaultArm =>
      match right with
      | none =>
        rw [arms]
        exact numbers_missing _ _ _
      | some body =>
        rw [arms]
        refine (statement_numbers body c).bind fun _ c₁ le _ => ?_
        have out := drawn.mono le
        refine numbers_draw (behind_apply done c₁) ((Quadruple.namesLabel_goto _).behind out) ?_
        refine arms_numbers value _ others _ ?_ (drawn_behind out)
        rw [temporaries_drawBehind]
        exact below.mono le.1
    all_goals
      simp only [arms]
      exact numbers_misplaced _ _ _

end

end Lowering

end Quadrupler
