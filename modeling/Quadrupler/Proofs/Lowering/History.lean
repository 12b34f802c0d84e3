import Quadrupler.Proofs.Lowering.Placing
import Quadrupler.Proofs.Lowering.Renumber
set_option autoImplicit false

/-!
# The life of a generator

A generator lowers one tree after another, and it goes on after a tree that cannot be lowered,
with the code that was emitted and the names that were drawn up to the failure.  At every moment
its names are numbered in the order of its listing, and what came before shows in later code only
in those numbers.
-/

namespace Quadrupler

/-! ## Numbered code, read from top to bottom -/

section
variable {α : Type} [BEq α] [LawfulBEq α]

theorem eraseDups_of_nodup {xs : List α} (h : xs.Nodup) : xs.eraseDups = xs := by
  induction xs with
  | nil => rfl
  | cons x xs ih =>
    obtain ⟨fresh, distinct⟩ := List.nodup_cons.mp h
    have others : (xs.filter fun y => !y == x) = xs := by
      refine List.filter_eq_self.mpr fun y hy => ?_
      have differs : y ≠ x := fun same => fresh (same ▸ hy)
      simpa using differs
    rw [List.eraseDups_cons, others, ih distinct]

/-- What has come before does not count again. -/
theorem eraseDups_append_known {known named : List α} (h : ∀ x ∈ named, x ∈ known)
    (rest : List α) : (known ++ (named ++ rest)).eraseDups = (known ++ rest).eraseDups := by
  have nothing : (named ++ rest).removeAll known = rest.removeAll known := by
    unfold List.removeAll
    rw [List.filter_append, List.append_left_eq_self]
    refine List.filter_eq_nil_iff.mpr fun x hx => ?_
    simpa using h x hx
  rw [List.eraseDups_append, List.eraseDups_append, nothing]

end

namespace Listing.Numbered

variable {code : Listing} {c c' : Counters}

/-- The temporaries that are assigned go on where the counter stood. -/
theorem assigned_eq (h : Numbered c code c') :
    (List.range c.temporaries).map Temporary.mk ++ code.filterMap Quadruple.writes? =
      (List.range c'.temporaries).map Temporary.mk := by
  induction h with
  | nil => simp
  | cons continues _ ih =>
    cases continues.2 with
    | nothing writes _ =>
      rw [List.filterMap_cons_none writes]
      exact ih
    | label writes _ =>
      rw [List.filterMap_cons_none writes]
      exact ih
    | temporary writes _ =>
      rw [List.filterMap_cons_some writes, ← ih, Counters.drawTemporary, List.range_succ]
      simp [Counters.temporary]

theorem nodup_labels (n : Nat) : ((List.range n).map Label.mk).Nodup := by
  refine List.nodup_range.map fun m k same => ?_
  exact congrArg Label.index same

/-- So do the labels that are new where they are named. -/
theorem named_eq (h : Numbered c code c') :
    ((List.range c.labels).map Label.mk ++ code.flatMap Quadruple.labels).eraseDups =
      (List.range c'.labels).map Label.mk := by
  induction h with
  | nil =>
    rw [List.flatMap_nil, List.append_nil]
    exact eraseDups_of_nodup (nodup_labels _)
  | @cons q code c c₁ c₂ continues _ ih =>
    rw [List.flatMap_cons]
    cases continues.2 with
    | nothing _ known =>
      rw [eraseDups_append_known, ih]
      intro l hl
      exact List.mem_map.mpr ⟨l.index, List.mem_range.mpr (known l hl), rfl⟩
    | temporary _ none =>
      rw [none]
      exact ih
    | label _ one =>
      rw [one, ← ih, Counters.drawLabel, List.range_succ]
      simp [Counters.label]

end Listing.Numbered

theorem Listing.nodup_of_definitions {code : Listing} (h : ∀ l, definitions code l ≤ 1) :
    (code.filterMap Quadruple.label?).Nodup := by
  refine List.nodup_iff_count_le_one.mpr fun l => ?_
  rw [List.count_filterMap]
  simpa [definitions, beq_eq_decide] using h l

/-! ## One call after another -/

namespace Generator

/-- Lowers trees one after another, whether that succeeds or fails. -/
def lowerEach (generator : Generator) (trees : List Tree) : Generator :=
  trees.foldl (fun generator t => (generator.lower t).2) generator

/-- The names of the listing are numbered in order, labels stand only where they are defined or
jumped to, and none is defined that has not been drawn, nor twice. -/
structure Orderly (generator : Generator) : Prop where
  numbered : Listing.Numbered .zero generator.listing generator.counters
  tidy : ∀ q ∈ generator.listing, q.Tidy
  placed : ∀ l, generator.listing.definitions l ≤ generator.counters.drawn l

theorem orderly_empty : empty.Orderly where
  numbered := .nil
  tidy := by simp [empty]
  placed := by simp [empty]

theorem listing_lower (generator : Generator) (t : Tree) :
    (generator.lower t).2.listing =
      generator.listing ++ (Lowering.statement t generator.counters).code :=
  rfl

/-- A call keeps the order, also one that fails. -/
theorem Orderly.lower {generator : Generator} (h : generator.Orderly) (t : Tree) :
    (generator.lower t).2.Orderly := by
  obtain ⟨tidy, account⟩ := Lowering.statement_places t [] generator.counters
  refine ⟨?_, ?_, ?_⟩
  · exact h.numbered.append (Lowering.statement_numbers t generator.counters).1
  · rw [listing_lower]
    exact List.forall_mem_append.mpr ⟨h.tidy, tidy⟩
  · intro l
    have before := h.placed l
    have more := account l
    rw [List.count_nil] at more
    rw [listing_lower, Listing.definitions_append]
    show _ ≤ (Lowering.statement t generator.counters).counters.drawn l
    omega

theorem Orderly.lowerEach {generator : Generator} (h : generator.Orderly) (trees : List Tree) :
    (generator.lowerEach trees).Orderly := by
  induction trees generalizing generator with
  | nil => exact h
  | cons t trees ih => exact ih (h.lower t)

theorem Orderly.assigned_eq {generator : Generator} (h : generator.Orderly) :
    generator.listing.filterMap Quadruple.writes? =
      (List.range generator.counters.temporaries).map Temporary.mk := by
  simpa [Counters.zero] using h.numbered.assigned_eq

theorem Orderly.mentioned_eq {generator : Generator} (h : generator.Orderly) :
    (generator.listing.flatMap Quadruple.mentions).eraseDups =
      (List.range generator.counters.labels).map Label.mk := by
  have same : generator.listing.flatMap Quadruple.mentions =
      generator.listing.flatMap Quadruple.labels :=
    List.flatMap_congr fun q hq => (h.tidy q hq).symm
  rw [same]
  simpa [Counters.zero] using h.numbered.named_eq

theorem Orderly.definitions_le_one {generator : Generator} (h : generator.Orderly) (l : Label) :
    generator.listing.definitions l ≤ 1 := by
  refine Nat.le_trans (h.placed l) ?_
  unfold Counters.drawn
  split <;> decide

/-- Whatever trees a generator has lowered or failed to lower, the next call only adds to its
listing; the temporaries it assigns, and the labels as they are first defined or jumped to, are
numbered from zero to its counters without a gap; and no label is defined twice. -/
theorem names_in_order (trees : List Tree) (t : Tree) :
    let generator := empty.lowerEach trees
    generator.listing <+: (generator.lower t).2.listing ∧
      generator.listing.filterMap Quadruple.writes? =
        (List.range generator.counters.temporaries).map Temporary.mk ∧
      (generator.listing.flatMap Quadruple.mentions).eraseDups =
        (List.range generator.counters.labels).map Label.mk ∧
      (generator.listing.filterMap Quadruple.label?).Nodup := by
  intro generator
  have orderly : generator.Orderly := orderly_empty.lowerEach trees
  refine ⟨?_, orderly.assigned_eq, orderly.mentioned_eq, ?_⟩
  · rw [listing_lower]
    exact List.prefix_append _ _
  · exact Listing.nodup_of_definitions orderly.definitions_le_one

/-- The first tree fails in its block, with a label that is never defined; the loop goes on. -/
example :
    let x : Tree := .identifier "x" ⟨1, 1⟩
    let stray : Tree := { kind := .elseBranch, location := ⟨1, 1⟩ }
    (empty.lowerEach
      [{ kind := .ifThen, location := ⟨1, 1⟩, left := some x, right := some stray },
       { kind := .whileLoop, location := ⟨2, 1⟩, left := some x, right := some x }]).listing =
      [.ifFalse (.name "x") ⟨0⟩, .label ⟨1⟩, .ifFalse (.name "x") ⟨2⟩, .goto ⟨1⟩, .label ⟨2⟩] := by
  decide

/-! ## What the past changes -/

/-- Whatever a generator has in its listing and has drawn, from trees it has lowered or failed to
lower, it succeeds or fails on the next tree as a new generator does.  It appends the code of the
new one with every name raised by what was drawn before, and draws as many names. -/
theorem lower_after_history (generator : Generator) (t : Tree) :
    let fresh := empty.lower t
    let later := generator.lower t
    later.1 = fresh.1 ∧
      later.2.listing = generator.listing ++ fresh.2.listing.raise generator.counters ∧
      later.2.counters = generator.counters.plus fresh.2.counters := by
  intro fresh later
  have follows : Lowering.statement t generator.counters =
      (Lowering.statement t .zero).raise generator.counters id :=
    Lowering.statement_follows t .zero
  refine ⟨?_, ?_, ?_⟩
  · calc
      later.1 = (Lowering.statement t generator.counters).result := rfl
      _ = (Lowering.statement t .zero).result.map id := congrArg Emission.result follows
      _ = fresh.1 := congrFun Except.map_id _
  · exact congrArg (fun emission => generator.listing ++ emission.code) follows
  · exact congrArg Emission.counters follows

end Generator

end Quadrupler
