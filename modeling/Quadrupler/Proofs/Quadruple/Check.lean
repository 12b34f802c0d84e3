import Quadrupler.Proofs.Lowering.Labels
import Quadrupler.Quadruple.Check
set_option autoImplicit false

/-!
# When a listing passes the check

The first pass of the check succeeds exactly if no label is defined twice, and it returns the
labels that are defined.  One quadruple passes exactly if it jumps to such a label, reads only
what has been assigned, and assigns what has not; `checkOne_eq_error` says what is wrong with one
that does not pass.
-/

namespace Quadrupler

/-! ## The parts of a quadruple -/

namespace Quadruple

variable {q : Quadruple} {l : Label} {t : Temporary}

theorem label?_eq_some_iff : q.label? = some l ↔ q.operation = .label l := by
  rw [label?]
  cases q.operation with
  | label m => simp
  | _ => simp

theorem temporary?_eq_some_iff {x : Operand} : x.temporary? = some t ↔ x = .temporary t := by
  cases x with
  | temporary u => simp [Operand.temporary?]
  | _ => simp [Operand.temporary?]

theorem target?_eq_some_iff :
    q.target? = some l ↔ q.operation ∈ [.ifFalse, .ifTrue, .goto] ∧ q.result = .label l := by
  have jumps : q.isJump = true ↔ q.operation ∈ [.ifFalse, .ifTrue, .goto] := by
    rw [isJump]
    cases q.operation with
    | _ => simp [Operation.isJump]
  have labelled : q.result.label? = some l ↔ q.result = .label l := by
    cases q.result with
    | label m => simp [Operand.label?]
    | _ => simp [Operand.label?]
  rw [target?, ← jumps, ← labelled]
  cases q.isJump with
  | true => simp
  | false => simp

theorem mem_reads_iff : t ∈ q.reads ↔ q.first = .temporary t ∨ q.second = .temporary t := by
  rw [reads, List.mem_append, Option.mem_toList, Option.mem_toList]
  exact or_congr temporary?_eq_some_iff temporary?_eq_some_iff

theorem writes?_eq_some_iff : q.writes? = some t ↔ q.result = .temporary t :=
  temporary?_eq_some_iff

end Quadruple

/-! ## The check -/

namespace Listing

theorem mem_filterMap_label? {code : Listing} {l : Label} :
    l ∈ code.filterMap Quadruple.label? ↔ 1 ≤ definitions code l := by
  rw [definitions, Nat.one_le_iff_ne_zero, ← Nat.pos_iff_ne_zero, List.countP_pos_iff,
    List.mem_filterMap]
  simp

theorem labelsFrom_eq_ok_iff {code : Listing} {defined labels : List Label} :
    labelsFrom defined code = .ok labels ↔
      (∀ l, definitions code l ≤ if l ∈ defined then 0 else 1) ∧
        labels = (code.filterMap Quadruple.label?).reverse ++ defined := by
  induction code generalizing defined with
  | nil => simp [labelsFrom, eq_comm]
  | cons q code ih =>
    rw [labelsFrom]
    cases hq : q.label? with
    | none => simp [ih, hq]
    | some m =>
      by_cases hm : m ∈ defined
      · have twice : ¬ definitions (q :: code) m ≤ if m ∈ defined then 0 else 1 := by
          simp [hm, hq]
        simp only [if_pos hm, reduceCtorEq, false_iff, not_and]
        exact fun once => absurd (once m) twice
      · have shift : (∀ l, definitions code l ≤ if l ∈ m :: defined then 0 else 1) ↔
            ∀ l, definitions (q :: code) l ≤ if l ∈ defined then 0 else 1 := by
          refine forall_congr' fun l => ?_
          by_cases hl : l = m
          · subst hl
            simp [hq, hm]
          · have other : ¬ m = l := fun same => hl same.symm
            simp [hq, hl, other]
        simp only [if_neg hm, ih, shift]
        simp [hq]

theorem checkOne_eq_ok_iff {labels : List Label} {assigned after : List Temporary} {index : Nat}
    {q : Quadruple} :
    checkOne labels assigned index q = .ok after ↔
      (∀ l, q.target? = some l → l ∈ labels) ∧ (∀ t ∈ q.reads, t ∈ assigned) ∧
        (∀ t, q.writes? = some t → t ∉ assigned) ∧ after = q.writes?.toList ++ assigned := by
  have jumps : q.target?.filter (· ∉ labels) = none ↔ ∀ l, q.target? = some l → l ∈ labels := by
    simp [Option.filter_eq_none_iff]
  have known : q.reads.find? (· ∉ assigned) = none ↔ ∀ t ∈ q.reads, t ∈ assigned := by
    simp
  rw [checkOne, ← jumps, ← known]
  cases q.target?.filter (· ∉ labels) with
  | some l => simp
  | none =>
    cases q.reads.find? (· ∉ assigned) with
    | some t => simp
    | none =>
      cases q.writes? with
      | none => simp [eq_comm]
      | some t =>
        by_cases ht : t ∈ assigned
        · simp [ht]
        · simp [ht, eq_comm]

theorem checkOne_eq_error {labels : List Label} {assigned : List Temporary} {index : Nat}
    {q : Quadruple} {fault : ListingFault} (h : checkOne labels assigned index q = .error fault) :
    (∃ l, fault = .undefinedLabel l index ∧ q.target? = some l ∧ l ∉ labels) ∨
      (∃ t, fault = .undefinedTemporary t index ∧ t ∈ q.reads ∧ t ∉ assigned) ∨
      ∃ t, fault = .duplicateTemporary t ∧ q.writes? = some t ∧ t ∈ assigned := by
  unfold checkOne at h
  split at h
  · rename_i l jumps
    cases h
    obtain ⟨target, missing⟩ := Option.filter_eq_some_iff.mp jumps
    exact .inl ⟨l, rfl, target, of_decide_eq_true missing⟩
  · rename_i t _ reads
    cases h
    refine .inr (.inl ⟨t, rfl, List.mem_of_find?_eq_some reads, ?_⟩)
    simpa using List.find?_some reads
  · cases h
  · rename_i t _ _ assigns
    split at h
    · rename_i again
      cases h
      exact .inr (.inr ⟨t, rfl, assigns, again⟩)
    · cases h

end Listing

end Quadrupler
