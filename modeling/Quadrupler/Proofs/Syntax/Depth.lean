import Quadrupler.Proofs.Syntax.Program
import Quadrupler.Proofs.Tree.Way
set_option autoImplicit false

/-!
# How deep the trees of programs are

The levels of nesting are counted while a program is read, and they bound what is counted as
`guarded` on every way down its tree.  They do not bound the operators that a way leaves to
the left: those levels are closed again when their chain ends, and the whole chain becomes
the first operand of the next, looser one.  So a way may pass as many operators on each of
the four levels of precedence as there are levels of nesting, before it comes to parentheses
that take one of them.
-/

namespace Quadrupler

namespace Syntax

open Grammar Quadrupler.Tree

/-- The most operators on a way down an expression with so many free levels. -/
def deepest (free : Nat) : Nat := 2 * free * (free + 1)

theorem deepest_succ (free : Nat) : deepest (free + 1) = 4 * (free + 1) + deepest free := by
  simp only [deepest, Nat.mul_add, Nat.add_mul]
  omega

/-- Every precedence level adds as many operators as there are free levels. -/
theorem four_mul_add_deepest (free : Nat) :
    4 * free + deepest (free - 1) = deepest free := by
  cases free with
  | zero => rfl
  | succ free => rw [deepest_succ]; rfl

/-- The levels bound what is guarded; all that nests is bounded by something else. -/
structure Bounded (inArm : Bool) (t : Tree) (levels bound : Nat) : Prop where
  guarded_le : height .guarded inArm t ≤ levels
  nesting_le : height .nesting inArm t ≤ bound

theorem Bounded.mono {inArm : Bool} {t : Tree} {m n bound bound' : Nat}
    (h : Bounded inArm t m bound) (levels : m ≤ n) (le : bound ≤ bound') :
    Bounded inArm t n bound' :=
  ⟨Nat.le_trans h.guarded_le levels, Nat.le_trans h.nesting_le le⟩

theorem bounded_some {inArm : Bool} {t : Tree} {m n bound bound' : Nat}
    (h : Bounded inArm t m bound) (levels : m ≤ n) (le : bound ≤ bound') :
    ∀ u ∈ some t, Bounded inArm u n bound' := by
  rintro u ⟨⟩
  exact h.mono levels le

/-- A node that does not count is bounded as its children are. -/
theorem bounded_plain {kind : Kind} {p : Location} {left right : Option Tree} {ss : List Tree}
    {inArm : Bool} {levels bound : Nat} (plain : kind.nests inArm = false)
    (hleft : ∀ t ∈ left, Bounded kind.isArm t levels bound)
    (hright : ∀ t ∈ right, Bounded kind.isArm t levels bound)
    (hss : ∀ t ∈ ss, Bounded kind.isArm t levels bound) :
    Bounded inArm ⟨kind, p, left, right, ss⟩ levels bound := by
  have guarded (turn : Turn) : Weight.guarded inArm kind turn = 0 := by simp [Weight.guarded, plain]
  have nesting (turn : Turn) : Weight.nesting inArm kind turn = 0 := by simp [Weight.nesting, plain]
  constructor
  · refine height_le ?_ (fun t ht => ?_) (fun t ht => ?_) (fun t ht => ?_)
    · simp [guarded]
    · simpa [guarded] using (hleft t ht).guarded_le
    · simpa [guarded] using (hright t ht).guarded_le
    · simpa [guarded] using (hss t ht).guarded_le
  · refine height_le ?_ (fun t ht => ?_) (fun t ht => ?_) (fun t ht => ?_)
    · simp [nesting]
    · simpa [nesting] using (hleft t ht).nesting_le
    · simpa [nesting] using (hright t ht).nesting_le
    · simpa [nesting] using (hss t ht).nesting_le

/-- An operator is guarded on the way to its second operand. -/
theorem bounded_binary {op : BinaryOp} {p : Location} {l r : Tree} {inArm : Bool}
    {before behind levels bound : Nat} (left : Bounded false l before bound)
    (right : Bounded false r behind bound) (hbefore : before ≤ levels) (hbehind : behind < levels) :
    Bounded inArm (.binary op l r p) levels (bound + 1) := by
  obtain ⟨guardedLeft, nestingLeft⟩ := left
  obtain ⟨guardedRight, nestingRight⟩ := right
  constructor
  · refine height_le (Nat.one_le_of_lt hbehind) ?_ ?_ nofun
    · rintro t ⟨⟩
      show 0 + height .guarded false l ≤ levels
      omega
    · rintro t ⟨⟩
      show 1 + height .guarded false r ≤ levels
      omega
  · refine height_le (Nat.le_add_left 1 bound) ?_ ?_ nofun
    · rintro t ⟨⟩
      show 1 + height .nesting false l ≤ bound + 1
      omega
    · rintro t ⟨⟩
      show 1 + height .nesting false r ≤ bound + 1
      omega

/-- A switch is guarded on the way to its arms. -/
theorem bounded_switch {p : Location} {e : Tree} {ts : List Tree} {inArm : Bool}
    {before behind bound : Nat} (discriminant : Bounded false e before bound)
    (arms : ∀ t ∈ ts, Bounded false t behind bound) :
    Bounded inArm { kind := .switch, location := p, left := some e, statements := ts }
      (max before (behind + 1)) (bound + 1) := by
  obtain ⟨guardedLeft, nestingLeft⟩ := discriminant
  constructor
  · refine height_le ?_ ?_ nofun fun t ht => ?_
    · show 1 ≤ max before (behind + 1)
      omega
    · rintro t ⟨⟩
      show 0 + height .guarded false e ≤ max before (behind + 1)
      omega
    · have guardedArm := (arms t ht).guarded_le
      show 1 + height .guarded false t ≤ max before (behind + 1)
      omega
  · refine height_le (Nat.le_add_left 1 bound) ?_ nofun fun t ht => ?_
    · rintro t ⟨⟩
      show 1 + height .nesting false e ≤ bound + 1
      omega
    · have nestingArm := (arms t ht).nesting_le
      show 1 + height .nesting false t ≤ bound + 1
      omega

theorem bounded_block {p : Location} {ts : List Tree} {levels bound : Nat}
    (h : ∀ t ∈ ts, Bounded false t levels bound) :
    Bounded false (.block ts p) (levels + 1) (bound + 1) := by
  constructor
  · refine height_le (Nat.le_add_left 1 levels) nofun nofun fun t ht => ?_
    have guardedStatement := (h t ht).guarded_le
    show 1 + height .guarded false t ≤ levels + 1
    omega
  · refine height_le (Nat.le_add_left 1 bound) nofun nofun fun t ht => ?_
    have nestingStatement := (h t ht).nesting_le
    show 1 + height .nesting false t ≤ bound + 1
    omega

/-! ## Expressions -/

theorem operators_le {n k levels : Nat} {tokens : List Token} {t : Tree}
    (h : Chain n k tokens t levels) : k ≤ levels := by
  cases h with
  | single _ => exact Nat.zero_le _
  | more _ _ _ _ => omega

mutual

theorem bounded_of_operand : ∀ {tokens : List Token} {t : Tree} {levels : Nat},
    Grammar.Operand tokens t levels → ∀ (inArm : Bool) (free : Nat), levels ≤ free →
      Bounded inArm t levels (deepest (free - 1))
  | _, _, _, .number _, _, _, _ => bounded_plain rfl nofun nofun nofun
  | _, _, _, .identifier _, _, _, _ => bounded_plain rfl nofun nofun nofun
  | _, _, _, .enclosed _ _ h, inArm, free, hfree => by
    have inside := bounded_of_level h inArm (free - 1) (by omega)
    rw [four_mul_add_deepest] at inside
    exact inside.mono (Nat.le_succ _) (Nat.le_refl _)

theorem bounded_of_level : ∀ {n : Nat} {tokens : List Token} {t : Tree} {levels : Nat},
    Level n tokens t levels → ∀ (inArm : Bool) (free : Nat), levels ≤ free →
      Bounded inArm t levels (n * free + deepest (free - 1))
  | _, _, _, _, .operand h, inArm, free, hfree => by
    rw [Nat.zero_mul, Nat.zero_add]
    exact bounded_of_operand h inArm free hfree
  | n + 1, _, _, _, .chain h, inArm, free, hfree => by
    have operators := operators_le h
    refine (bounded_of_chain h inArm free hfree).mono (Nat.le_refl _) ?_
    rw [Nat.succ_mul]
    omega

theorem bounded_of_chain : ∀ {n k : Nat} {tokens : List Token} {t : Tree} {levels : Nat},
    Chain n k tokens t levels → ∀ (inArm : Bool) (free : Nat), levels ≤ free →
      Bounded inArm t levels (k + (n * free + deepest (free - 1)))
  | _, _, _, _, _, .single h, inArm, free, hfree => by
    rw [Nat.zero_add]
    exact bounded_of_level h inArm free hfree
  | n, k + 1, _, _, _, .more left _ _ right, inArm, free, hfree => by
    have before := bounded_of_chain left false free (by omega)
    have behind := (bounded_of_level right false free (by omega)).mono (Nat.le_refl _)
      (Nat.le_add_left _ k)
    refine (bounded_binary before behind (Nat.le_max_left _ _) ?_).mono (Nat.le_refl _) ?_
    · omega
    · omega

end

theorem bounded_of_expression {tokens : List Token} {t : Tree} {levels : Nat}
    (h : Expression tokens t levels) (inArm : Bool) (free : Nat) (enough : levels ≤ free) :
    Bounded inArm t levels (deepest free) := by
  rw [← four_mul_add_deepest]
  exact bounded_of_level h inArm free enough

theorem bounded_of_condition {tokens : List Token} {t : Tree} {levels : Nat}
    (h : Condition tokens t levels) (inArm : Bool) (free : Nat) (enough : levels ≤ free) :
    Bounded inArm t levels (deepest free) := by
  cases h with
  | mk _ _ h => exact bounded_of_expression h inArm free enough

/-! ## Statements -/

theorem bounded_of_simple {tokens : List Token} {t : Tree} {levels : Nat}
    (h : Simple tokens t levels) (free : Nat) (enough : levels ≤ free) :
    Bounded false t levels (deepest free) := by
  cases h with
  | assign _ _ h =>
    refine bounded_plain rfl ?_ ?_ nofun
    · rintro t ⟨⟩
      exact bounded_plain rfl nofun nofun nofun
    · rintro t ⟨⟩
      exact bounded_of_expression h false free enough
  | step _ _ =>
    refine bounded_plain rfl ?_ nofun nofun
    rintro t ⟨⟩
    exact bounded_plain rfl nofun nofun nofun
  | expression h => exact bounded_of_expression h false free enough

/-- A statement may be one switch deeper than an expression: the parentheses around what a
switch decides on open no level. -/
def deepestStatement (free : Nat) : Nat := deepest free + 1

theorem deepestStatement_pred_le {free : Nat} (pos : 0 < free) :
    deepestStatement (free - 1) ≤ deepest free := by
  obtain ⟨free, rfl⟩ : ∃ n, free = n + 1 := ⟨free - 1, by omega⟩
  rw [deepestStatement, deepest_succ, Nat.add_sub_cancel]
  omega

mutual

theorem bounded_of_statement : ∀ {tokens : List Token} {t : Tree} {levels : Nat},
    Statement tokens t levels → ∀ free : Nat, levels ≤ free →
      Bounded false t levels (deepestStatement free)
  | _, _, _, .returning _ _ he, free, enough => by
    have value := bounded_of_expression he false free enough
    exact bounded_plain rfl nofun (bounded_some value (Nat.le_refl _) (Nat.le_succ _)) nofun
  | _, _, _, .ifThen _ he hb, free, enough => by
    have test := bounded_of_condition he false free (by omega)
    have body := bounded_of_block hb free (by omega)
    exact bounded_plain rfl (bounded_some test (by omega) (Nat.le_succ _))
      (bounded_some body (by omega) (Nat.le_refl _)) nofun
  | _, _, _, .ifElse _ _ he hb ha, free, enough => by
    have test := bounded_of_condition he false free (by omega)
    have body := bounded_of_block hb free (by omega)
    have alternative := bounded_of_block ha free (by omega)
    refine bounded_plain rfl (bounded_some test (by omega) (Nat.le_succ _))
      (bounded_some body (by omega) (Nat.le_refl _)) (List.forall_mem_singleton.mpr ?_)
    exact bounded_plain rfl nofun (bounded_some alternative (by omega) (Nat.le_refl _)) nofun
  | _, _, _, .whileLoop _ he hb, free, enough => by
    have test := bounded_of_condition he false free (by omega)
    have body := bounded_of_block hb free (by omega)
    exact bounded_plain rfl (bounded_some test (by omega) (Nat.le_succ _))
      (bounded_some body (by omega) (Nat.le_refl _)) nofun
  | _, _, _, .forLoop _ _ _ _ _ hi he ha hb, free, enough => by
    have first := bounded_of_simple hi free (by omega)
    have test := bounded_of_expression he false free (by omega)
    have advance := bounded_of_simple ha free (by omega)
    have body := bounded_of_block hb free (by omega)
    refine bounded_plain rfl (bounded_some test (by omega) (Nat.le_succ _))
      (bounded_some body (by omega) (Nat.le_refl _)) ?_
    exact List.forall_mem_cons.mpr ⟨first.mono (by omega) (Nat.le_succ _),
      List.forall_mem_singleton.mpr (advance.mono (by omega) (Nat.le_succ _))⟩
  | _, _, _, .doLoop _ _ _ hb he, free, enough => by
    have test := bounded_of_condition he false free (by omega)
    have body := bounded_of_block hb free (by omega)
    exact bounded_plain rfl (bounded_some test (by omega) (Nat.le_succ _))
      (bounded_some body (by omega) (Nat.le_refl _)) nofun
  | _, _, _, .switch _ _ _ he harms, free, enough => by
    have test := bounded_of_condition he false free (by omega)
    have arms := bounded_of_arms harms (free - 1) (by omega)
    refine bounded_switch test fun t ht => (arms t ht).mono (Nat.le_refl _) ?_
    exact deepestStatement_pred_le (by omega)
  | _, _, _, .block hb, free, enough => bounded_of_block hb free enough
  | _, _, _, .empty _, free, enough => bounded_plain rfl nofun nofun nofun
  | _, _, _, .simple _ h, free, enough =>
    (bounded_of_simple h free enough).mono (Nat.le_refl _) (Nat.le_succ _)

theorem bounded_of_block : ∀ {tokens : List Token} {t : Tree} {levels : Nat},
    Block tokens t levels → ∀ free : Nat, levels ≤ free →
      Bounded false t levels (deepestStatement free)
  | _, _, _, .mk _ _ h, free + 1, enough => by
    have inside := bounded_of_statements h free (Nat.le_of_succ_le_succ enough)
    refine (bounded_block inside).mono (Nat.le_refl _) ?_
    rw [deepestStatement, deepestStatement, deepest_succ]
    omega

theorem bounded_of_statements : ∀ {tokens : List Token} {ts : List Tree} {levels : Nat},
    Statements tokens ts levels → ∀ free : Nat, levels ≤ free →
      ∀ t ∈ ts, Bounded false t levels (deepestStatement free)
  | _, _, _, .nil, _, _ => nofun
  | _, _, _, .cons first others, free, enough => by
    have head := bounded_of_statement first free (by omega)
    have tail := bounded_of_statements others free (by omega)
    exact List.forall_mem_cons.mpr ⟨head.mono (Nat.le_max_left _ _) (Nat.le_refl _),
      fun t ht => (tail t ht).mono (Nat.le_max_right _ _) (Nat.le_refl _)⟩

theorem bounded_of_arms : ∀ {tokens : List Token} {ts : List Tree} {levels : Nat},
    Arms tokens ts levels → ∀ free : Nat, levels ≤ free →
      ∀ t ∈ ts, Bounded false t levels (deepestStatement free)
  | _, _, _, .nil, _, _ => nofun
  | _, _, _, .caseArm _ _ he hbody others, free, enough => by
    have constant := bounded_of_expression he true free (by omega)
    have body := bounded_of_statements hbody free (by omega)
    have tail := bounded_of_arms others free (by omega)
    refine List.forall_mem_cons.mpr ⟨?_, fun t ht => (tail t ht).mono (by omega) (Nat.le_refl _)⟩
    refine bounded_plain rfl (bounded_some constant (by omega) (Nat.le_succ _)) ?_ nofun
    exact bounded_some (bounded_plain rfl nofun nofun body) (by omega) (Nat.le_refl _)
  | _, _, _, .defaultArm _ _ hbody others, free, enough => by
    have body := bounded_of_statements hbody free (by omega)
    have tail := bounded_of_arms others free (by omega)
    refine List.forall_mem_cons.mpr ⟨?_, fun t ht => (tail t ht).mono (by omega) (Nat.le_refl _)⟩
    refine bounded_plain rfl nofun ?_ nofun
    exact bounded_some (bounded_plain rfl nofun nofun body) (by omega) (Nat.le_refl _)

end

/-! ## Programs -/

theorem bounded_foldl {before : Tree} {ts : List Tree} {levels bound : Nat}
    (first : Bounded false before levels bound) (others : ∀ t ∈ ts, Bounded false t levels bound) :
    Bounded false (ts.foldl
      (fun before next =>
        { kind := .separator, location := next.location, left := some before, right := some next })
      before) levels bound := by
  induction ts generalizing before with
  | nil => exact first
  | cons t ts ih =>
    obtain ⟨next, others⟩ := List.forall_mem_cons.mp others
    refine ih (bounded_plain rfl ?_ ?_ nofun) others
    · exact bounded_some first (Nat.le_refl _) (Nat.le_refl _)
    · exact bounded_some next (Nat.le_refl _) (Nat.le_refl _)

/-- A program without statements is an empty block, although it needs no level. -/
theorem bounded_of_program {tokens : List Token} {t : Tree} {levels : Nat}
    (h : Program tokens t levels) (free : Nat) (enough : levels ≤ free) :
    Bounded false t (max levels 1) (deepestStatement free) := by
  obtain ⟨hts⟩ := h
  rename_i ts
  cases ts with
  | nil =>
    have none : ∀ t ∈ ([] : List Tree), Bounded false t 0 (deepest free) := nofun
    exact (bounded_block none).mono (Nat.le_max_right _ _) (Nat.le_refl _)
  | cons t ts =>
    obtain ⟨first, others⟩ := List.forall_mem_cons.mp (bounded_of_statements hts free enough)
    exact (bounded_foldl first others).mono (Nat.le_max_left _ _) (Nat.le_refl _)

end Syntax

/-- What a way down a program can count. -/
theorem counts_of_way {tokens : List Token} {t : Tree} (h : parseTokens tokens = .ok t)
    {way : List (Tree.Kind × Tree.Turn)} (hway : t.Way way) :
    Tree.guarded way ≤ Syntax.nestingLimit ∧
      Tree.nesting way ≤ Syntax.deepestStatement Syntax.nestingLimit := by
  obtain ⟨levels, enough, derived⟩ := exists_program_of_parseTokens h
  have bounded := Syntax.bounded_of_program derived Syntax.nestingLimit enough
  constructor
  · have one : 1 ≤ Syntax.nestingLimit := by decide
    exact Nat.le_trans (hway.total_le_height false)
      (Nat.le_trans bounded.guarded_le (Nat.max_le.mpr ⟨enough, one⟩))
  · exact Nat.le_trans (hway.total_le_height false) bounded.nesting_le

end Quadrupler
