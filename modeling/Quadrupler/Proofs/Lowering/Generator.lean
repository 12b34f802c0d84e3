import Quadrupler.Proofs.Lowering.Numbering
import Quadrupler.Proofs.Quadruple.Check
set_option autoImplicit false

/-!
# Generated listings pass the check

Code whose names are numbered in order assigns each temporary before it is read and never
twice, and it names only labels that have been drawn when it ends.  Lowering defines each of
those exactly once.  So whatever trees a generator has lowered, its listing passes.
-/

namespace Quadrupler

namespace Listing

/-! ## Numbered code passes -/

/-- The temporaries drawn so far are those that have been assigned. -/
theorem Numbered.checkFrom_eq_ok {code : Listing} {c c' : Counters} (h : Numbered c code c')
    {labels : List Label} {assigned : List Temporary} {index : Nat}
    (hassigned : ∀ t, t ∈ assigned ↔ t.index < c.temporaries)
    (hlabels : ∀ q ∈ code, ∀ l, q.target? = some l → l ∈ labels) :
    checkFrom labels assigned index code = .ok () := by
  induction h generalizing assigned index with
  | nil => rfl
  | @cons q code c c₁ c₂ continues _ ih =>
    obtain ⟨reads, draws⟩ := continues
    have here : ∀ l, q.target? = some l → l ∈ labels := hlabels q List.mem_cons_self
    have behind : ∀ p ∈ code, ∀ l, p.target? = some l → l ∈ labels :=
      fun p hp => hlabels p (List.mem_cons_of_mem q hp)
    have hreads : ∀ t ∈ q.reads, t ∈ assigned := fun t ht => (hassigned t).mpr (reads t ht)
    have fresh : ∀ t, q.writes? = some t → t ∉ assigned := by
      intro t ht
      cases draws with
      | nothing writes _ => simp [writes] at ht
      | label writes _ => simp [writes] at ht
      | temporary writes _ =>
        obtain rfl : c.temporary = t := by simpa [writes] using ht
        rw [hassigned]
        exact Nat.lt_irrefl _
    have after : ∀ t, t ∈ q.writes?.toList ++ assigned ↔ t.index < c₁.temporaries := by
      intro t
      cases draws with
      | nothing writes _ => simp [writes, hassigned]
      | label writes _ => simp [writes, hassigned, Counters.drawLabel]
      | temporary writes _ =>
        have next : t = c.temporary ↔ t.index = c.temporaries := by
          cases t
          simp [Counters.temporary]
        simp only [writes, Option.toList_some, List.singleton_append, List.mem_cons, next,
          hassigned, Counters.drawTemporary]
        omega
    have one : checkOne labels assigned index q = .ok (q.writes?.toList ++ assigned) :=
      checkOne_eq_ok_iff.mpr ⟨here, hreads, fresh, rfl⟩
    rw [checkFrom, one]
    exact ih after behind

/-- Numbered code that defines each label it draws once passes the check. -/
theorem Numbered.check_eq_ok {code : Listing} {c : Counters} (h : Numbered .zero code c)
    (once : ∀ l, definitions code l = if l.index < c.labels then 1 else 0) :
    check code = .ok () := by
  have labels : labelsFrom [] code = .ok ((code.filterMap Quadruple.label?).reverse ++ []) := by
    refine labelsFrom_eq_ok_iff.mpr ⟨fun l => ?_, rfl⟩
    rw [once l]
    split <;> simp
  rw [check, labels]
  refine h.checkFrom_eq_ok (by simp [Counters.zero]) fun q hq l hl => ?_
  have named : l ∈ code.flatMap Quadruple.labels :=
    List.mem_flatMap.mpr ⟨q, hq, Quadruple.target?_mem_labels hl⟩
  have drawn : l.index < c.labels := (h.label_lt_iff l).mpr (.inr named)
  have defined : 1 ≤ definitions code l := by simp [once l, drawn]
  simpa using mem_filterMap_label?.mpr defined

end Listing

/-! ## Generators -/

namespace Generator

/-- Lowers trees one after another, as long as that succeeds. -/
def lowerAll (generator : Generator) : List Tree → Except LoweringError Unit × Generator
  | [] => (.ok (), generator)
  | t :: ts =>
    match generator.lower t with
    | (.ok (), next) => next.lowerAll ts
    | (.error e, next) => (.error e, next)

/-- The code of trees lowered one after another is that of the trees in a row. -/
theorem emits_of_lowerAll {trees : List Tree} {before after : Generator}
    (h : before.lowerAll trees = (.ok (), after)) :
    ∃ code, Lowering.Emits (.statements trees) before.counters code after.counters ∧
      after.listing = before.listing ++ code := by
  induction trees generalizing before with
  | nil =>
    cases h
    exact ⟨[], .noStatements, by simp⟩
  | cons t ts ih =>
    rw [lowerAll] at h
    split at h
    · rename_i next lowered
      obtain ⟨code, emitted, listing⟩ := ih h
      rcases ht : Lowering.statement t before.counters with ⟨result, first, c⟩
      rw [lower, run, ht] at lowered
      cases lowered
      exact ⟨first ++ code, .statements (Lowering.statement_eq_ok_iff.mp ht) emitted,
        by simpa using listing⟩
    · cases h

/-- Whatever trees a generator lowers one after another, if all of them can be lowered then
its listing passes the check. -/
theorem check_of_lowerAll (trees : List Tree) (generator : Generator)
    (h : empty.lowerAll trees = (.ok (), generator)) : generator.listing.check = .ok () := by
  obtain ⟨code, emitted, listing⟩ := emits_of_lowerAll h
  have same : generator.listing = code := by simpa [empty] using listing
  have computed : Lowering.statements trees .zero = ⟨.ok (), code, generator.counters⟩ :=
    Lowering.succeeds_of_emits emitted
  have numbered : Listing.Numbered .zero code generator.counters := by
    have := (Lowering.statements_numbers trees .zero).1
    rwa [computed] at this
  rw [same]
  refine numbered.check_eq_ok fun l => ?_
  simpa [Lowering.pending, Counters.zero, empty] using (Lowering.definitions_of_emits emitted l).2

/-- A switch whose first arm draws the label behind it, after a loop, from one generator. -/
theorem check_of_lowerAll_switch :
    let x : Tree := .identifier "x" ⟨1, 1⟩
    let one : Tree := .number "1" ⟨1, 1⟩
    let body : Tree := .block [] ⟨1, 1⟩
    let trees : List Tree :=
      [{ kind := .whileLoop, location := ⟨1, 1⟩, left := some (.binary .lt x one ⟨1, 1⟩),
         right := some { kind := .step .increment, location := ⟨1, 1⟩, left := some x } },
       { kind := .switch, location := ⟨2, 1⟩, left := some (.binary .add x one ⟨2, 1⟩),
         statements :=
           [{ kind := .caseArm, location := ⟨2, 1⟩, left := some one, right := some body },
            { kind := .defaultArm, location := ⟨2, 1⟩, right := some body }] }]
    ∃ generator, empty.lowerAll trees = (.ok (), generator) ∧
      generator.counters = ⟨4, 4⟩ ∧ generator.listing.check = .ok () := by
  intro x one body trees
  have lowered : empty.lowerAll trees = (.ok (), _) := rfl
  exact ⟨_, lowered, rfl, check_of_lowerAll trees _ lowered⟩

end Generator

end Quadrupler
