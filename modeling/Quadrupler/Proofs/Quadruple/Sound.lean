import Mathlib.Data.Nat.Find
import Mathlib.Order.Bounds.Defs
import Quadrupler.Proofs.Quadruple.Check
import Quadrupler.Quadruple.Sound
set_option autoImplicit false

/-!
# What the check of a listing finds

The check goes through a listing twice.  The first pass looks for labels that are defined
twice, and the second for all other faults.  Each pass finds the first violation of the kind
that it looks for, if there is one (`labelsFrom_finds`, `checkFrom_finds`).  So a listing passes
exactly if it is sound, and a fault that is reported is a violation.

It is the first violation of the listing, too, unless the listing goes wrong before the
quadruple that defines a label again: the second pass is never reached then.
-/

namespace Quadrupler

open Quadruple (label?_eq_some_iff target?_eq_some_iff mem_reads_iff writes?_eq_some_iff)

/-- A label that is defined twice, which is what the first pass looks for. -/
def ListingFault.isDuplicateLabel : ListingFault → Bool
  | .duplicateLabel _ => true
  | .undefinedLabel _ _ | .duplicateTemporary _ | .undefinedTemporary _ _ => false

theorem ListingFault.isDuplicateLabel_iff {fault : ListingFault} :
    fault.isDuplicateLabel = true ↔ ∃ l, fault = .duplicateLabel l := by
  cases fault with
  | duplicateLabel l => simp [isDuplicateLabel]
  | _ => simp [isDuplicateLabel]

namespace Listing

variable {listing before after : Listing} {q : Quadruple} {index : Nat} {fault : ListingFault}
  {labels defined : List Label} {assigned assigned' : List Temporary}

/-! ## Violations -/

/-- The quadruple commits the fault where these stand before it, as the check sees it. -/
def Commits (listing before : Listing) (q : Quadruple) : ListingFault → Prop
  | .duplicateLabel l => q.label? = some l ∧ ∃ p ∈ before, p.label? = some l
  | .undefinedLabel l index =>
    index = before.length ∧ q.target? = some l ∧ ∀ p ∈ listing, p.label? ≠ some l
  | .undefinedTemporary t index =>
    index = before.length ∧ t ∈ q.reads ∧ ∀ p ∈ before, p.writes? ≠ some t
  | .duplicateTemporary t => q.writes? = some t ∧ ∃ p ∈ before, p.writes? = some t

theorem mem_iff_earlier {p : Quadruple} :
    p ∈ before ↔ ∃ earlier < before.length, (before ++ after)[earlier]? = some p := by
  rw [List.mem_iff_getElem?]
  constructor
  · rintro ⟨earlier, at_⟩
    have inside := (List.getElem?_eq_some_iff.mp at_).1
    exact ⟨earlier, inside, by rwa [List.getElem?_append_left inside]⟩
  · rintro ⟨earlier, inside, at_⟩
    exact ⟨earlier, by rwa [List.getElem?_append_left inside] at at_⟩

/-- A violation at an index is what the quadruple there commits. -/
theorem violates_iff_commits :
    (before ++ q :: after).Violates before.length fault ↔
      (before ++ q :: after).Commits before q fault := by
  have here : (before ++ q :: after)[before.length]? = some q := by simp
  constructor
  · intro violates
    cases violates with
    | duplicateLabel at_ defines earlier at_' defines' =>
      obtain rfl := Option.some.inj (here.symm.trans at_)
      exact ⟨label?_eq_some_iff.mpr defines, _, mem_iff_earlier.mpr ⟨_, earlier, at_'⟩,
        label?_eq_some_iff.mpr defines'⟩
    | undefinedLabel at_ jump result missing =>
      obtain rfl := Option.some.inj (here.symm.trans at_)
      refine ⟨rfl, target?_eq_some_iff.mpr ⟨jump, result⟩, fun p member defines => ?_⟩
      exact missing p member (label?_eq_some_iff.mp defines)
    | undefinedTemporary at_ read unassigned =>
      obtain rfl := Option.some.inj (here.symm.trans at_)
      refine ⟨rfl, mem_reads_iff.mpr read, fun p member assigns => ?_⟩
      obtain ⟨earlier, inside, at_'⟩ := mem_iff_earlier.mp member
      exact unassigned earlier p inside at_' (writes?_eq_some_iff.mp assigns)
    | duplicateTemporary at_ assigns earlier at_' assigns' =>
      obtain rfl := Option.some.inj (here.symm.trans at_)
      exact ⟨writes?_eq_some_iff.mpr assigns, _, mem_iff_earlier.mpr ⟨_, earlier, at_'⟩,
        writes?_eq_some_iff.mpr assigns'⟩
  · intro commits
    cases fault with
    | duplicateLabel l =>
      obtain ⟨defines, p, member, defines'⟩ := commits
      obtain ⟨earlier, inside, at_⟩ := mem_iff_earlier.mp member
      exact .duplicateLabel here (label?_eq_some_iff.mp defines) inside at_
        (label?_eq_some_iff.mp defines')
    | undefinedLabel l index =>
      obtain ⟨rfl, target, missing⟩ := commits
      obtain ⟨jump, result⟩ := target?_eq_some_iff.mp target
      refine .undefinedLabel here jump result fun p member defines => ?_
      exact missing p member (label?_eq_some_iff.mpr defines)
    | undefinedTemporary t index =>
      obtain ⟨rfl, read, unassigned⟩ := commits
      refine .undefinedTemporary here (mem_reads_iff.mp read) fun earlier p inside at_ assigns => ?_
      exact unassigned p (mem_iff_earlier.mpr ⟨earlier, inside, at_⟩)
        (writes?_eq_some_iff.mpr assigns)
    | duplicateTemporary t =>
      obtain ⟨assigns, p, member, assigns'⟩ := commits
      obtain ⟨earlier, inside, at_⟩ := mem_iff_earlier.mp member
      exact .duplicateTemporary here (writes?_eq_some_iff.mp assigns) inside at_
        (writes?_eq_some_iff.mp assigns')

theorem Violates.lt_length (h : listing.Violates index fault) : index < listing.length := by
  cases h with
  | duplicateLabel at_ => exact (List.getElem?_eq_some_iff.mp at_).1
  | undefinedLabel at_ => exact (List.getElem?_eq_some_iff.mp at_).1
  | undefinedTemporary at_ => exact (List.getElem?_eq_some_iff.mp at_).1
  | duplicateTemporary at_ => exact (List.getElem?_eq_some_iff.mp at_).1

/-! ## What a pass finds -/

/-- No quadruple before the index commits a fault that this pass looks for. -/
def CleanBefore (listing : Listing) (pass : Bool) (index : Nat) : Prop :=
  ∀ (earlier : Nat) (fault : ListingFault), earlier < index → fault.isDuplicateLabel = pass →
    ¬listing.Violates earlier fault

/-- The first fault that this pass looks for is committed at the index. -/
structure First (listing : Listing) (pass : Bool) (index : Nat) (fault : ListingFault) :
    Prop where
  kind : fault.isDuplicateLabel = pass
  violates : listing.Violates index fault
  clean : listing.CleanBefore pass index

/-- A pass fails with the first fault that it looks for, and succeeds if there is none. -/
def Finds {α : Type} (listing : Listing) (pass : Bool) : Except ListingFault α → Prop
  | .ok _ => listing.CleanBefore pass listing.length
  | .error fault => ∃ index, listing.First pass index fault

theorem CleanBefore.succ {pass : Bool}
    (h : (before ++ q :: after).CleanBefore pass before.length)
    (here : ∀ fault, fault.isDuplicateLabel = pass →
      ¬(before ++ q :: after).Commits before q fault) :
    (before ++ q :: after).CleanBefore pass (before ++ [q]).length := by
  intro earlier fault inside kind violates
  rw [List.length_append, List.length_singleton, Nat.lt_succ_iff_lt_or_eq] at inside
  rcases inside with inside | rfl
  · exact h earlier fault inside kind violates
  · exact here fault kind (violates_iff_commits.mp violates)

theorem first_of_commits {pass : Bool} (kind : fault.isDuplicateLabel = pass)
    (clean : (before ++ q :: after).CleanBefore pass before.length)
    (commits : (before ++ q :: after).Commits before q fault) :
    (before ++ q :: after).First pass before.length fault :=
  ⟨kind, violates_iff_commits.mpr commits, clean⟩

/-- The first pass, where it has come to know the labels of the quadruples before. -/
theorem labelsFrom_finds (known : ∀ l, l ∈ defined ↔ ∃ p ∈ before, p.label? = some l)
    (clean : (before ++ after).CleanBefore true before.length) :
    (before ++ after).Finds true (labelsFrom defined after) := by
  induction after generalizing before defined with
  | nil =>
    rw [List.append_nil] at clean ⊢
    exact clean
  | cons q after ih =>
    have regroup : before ++ q :: after = before ++ [q] ++ after := by simp
    have only : ∀ fault, fault.isDuplicateLabel = true →
        (before ++ q :: after).Commits before q fault → ∃ l ∈ defined, q.label? = some l := by
      intro fault kind commits
      obtain ⟨l, rfl⟩ := ListingFault.isDuplicateLabel_iff.mp kind
      exact ⟨l, (known l).mpr commits.2, commits.1⟩
    rw [labelsFrom]
    cases label : q.label? with
    | none =>
      have clean' := clean.succ fun fault kind commits => by
        obtain ⟨l, -, defines⟩ := only fault kind commits
        exact absurd (label.symm.trans defines) (by simp)
      rw [regroup] at clean' ⊢
      refine ih (fun l => ?_) clean'
      simp [known, label]
    | some l =>
      dsimp only
      by_cases again : l ∈ defined
      · rw [if_pos again]
        exact ⟨before.length, first_of_commits rfl clean ⟨label, (known l).mp again⟩⟩
      · rw [if_neg again]
        have clean' := clean.succ fun fault kind commits => by
          obtain ⟨m, member, defines⟩ := only fault kind commits
          obtain rfl : l = m := Option.some.inj (label.symm.trans defines)
          exact again member
        rw [regroup] at clean' ⊢
        refine ih (fun m => ?_) clean'
        simp [known, label, eq_comm, or_comm]

/-- What the second pass knows in front of a quadruple: the labels of the whole listing, and the
temporaries that the quadruples before assign. -/
structure Knows (listing before : Listing) (labels : List Label) (assigned : List Temporary) :
    Prop where
  labels : ∀ l, l ∈ labels ↔ ∃ p ∈ listing, p.label? = some l
  assigned : ∀ t, t ∈ assigned ↔ ∃ p ∈ before, p.writes? = some t

/-- A quadruple passes if it commits nothing but perhaps a label again. -/
theorem Knows.step (known : listing.Knows before labels assigned)
    (h : checkOne labels assigned before.length q = .ok assigned') :
    listing.Knows (before ++ [q]) labels assigned' ∧
      ∀ fault, fault.isDuplicateLabel = false → ¬listing.Commits before q fault := by
  obtain ⟨jumps, reads, writes, rfl⟩ := checkOne_eq_ok_iff.mp h
  refine ⟨⟨known.labels, fun t => ?_⟩, fun fault kind commits => ?_⟩
  · cases assigns : q.writes? with
    | none => simp [known.assigned, assigns]
    | some u => simp [known.assigned, assigns, eq_comm, or_comm]
  · cases fault with
    | duplicateLabel l => cases kind
    | undefinedLabel l index =>
      obtain ⟨-, target, missing⟩ := commits
      obtain ⟨p, member, defines⟩ := (known.labels l).mp (jumps l target)
      exact missing p member defines
    | undefinedTemporary t index =>
      obtain ⟨-, read, unassigned⟩ := commits
      obtain ⟨p, member, assigns⟩ := (known.assigned t).mp (reads t read)
      exact unassigned p member assigns
    | duplicateTemporary t =>
      obtain ⟨assigns, earlier⟩ := commits
      exact writes t assigns ((known.assigned t).mpr earlier)

/-- A quadruple that does not pass commits the fault that is reported. -/
theorem Knows.commits (known : listing.Knows before labels assigned)
    (h : checkOne labels assigned before.length q = .error fault) :
    fault.isDuplicateLabel = false ∧ listing.Commits before q fault := by
  rcases checkOne_eq_error h with ⟨l, rfl, target, missing⟩ | ⟨t, rfl, read, unassigned⟩ |
    ⟨t, rfl, assigns, again⟩
  · refine ⟨rfl, rfl, target, fun p member defines => ?_⟩
    exact missing ((known.labels l).mpr ⟨p, member, defines⟩)
  · refine ⟨rfl, rfl, read, fun p member assigns => ?_⟩
    exact unassigned ((known.assigned t).mpr ⟨p, member, assigns⟩)
  · exact ⟨rfl, assigns, (known.assigned t).mp again⟩

/-- The second pass, from some quadruple on. -/
theorem checkFrom_finds (known : (before ++ after).Knows before labels assigned)
    (clean : (before ++ after).CleanBefore false before.length) :
    (before ++ after).Finds false (checkFrom labels assigned before.length after) := by
  induction after generalizing before assigned with
  | nil =>
    rw [List.append_nil] at clean ⊢
    exact clean
  | cons q after ih =>
    rw [checkFrom]
    cases one : checkOne labels assigned before.length q with
    | error fault =>
      obtain ⟨kind, commits⟩ := known.commits one
      exact ⟨before.length, first_of_commits kind clean commits⟩
    | ok assigned' =>
      obtain ⟨known', passes⟩ := known.step one
      have clean' := clean.succ passes
      have regroup : before ++ q :: after = before ++ [q] ++ after := by simp
      rw [regroup] at known' clean' ⊢
      have rest := ih known' clean'
      rw [List.length_append] at rest
      exact rest

/-! ## What the check finds -/

theorem cleanBefore_zero (listing : Listing) (pass : Bool) : listing.CleanBefore pass 0 :=
  fun _ _ impossible => absurd impossible (Nat.not_lt_zero _)

theorem CleanBefore.not_violates {pass : Bool} (h : listing.CleanBefore pass listing.length)
    (kind : fault.isDuplicateLabel = pass) : ¬listing.Violates index fault :=
  fun violates => h index fault violates.lt_length kind violates

/-- A listing passes and is sound, or the first fault that one of the passes looks for is reported;
the second pass is only reached if no label is defined twice. -/
theorem check_cases (listing : Listing) :
    (listing.check = .ok () ∧ listing.Sound) ∨
      ∃ pass index fault, listing.check = .error fault ∧ listing.First pass index fault ∧
        (pass = false → listing.CleanBefore true listing.length) := by
  have first : Finds ([] ++ listing) true (labelsFrom [] listing) :=
    labelsFrom_finds (by simp) (cleanBefore_zero _ true)
  cases labels : labelsFrom [] listing with
  | error fault =>
    rw [labels] at first
    obtain ⟨index, found⟩ := first
    refine .inr ⟨true, index, fault, ?_, found, fun impossible => Bool.noConfusion impossible⟩
    rw [check, labels]
    rfl
  | ok labels' =>
    rw [labels] at first
    have known : Knows ([] ++ listing) [] labels' [] := by
      refine ⟨fun l => ?_, by simp⟩
      rw [(labelsFrom_eq_ok_iff.mp labels).2]
      simp
    have second : Finds ([] ++ listing) false (checkFrom labels' [] 0 listing) :=
      checkFrom_finds known (cleanBefore_zero _ false)
    have same : listing.check = checkFrom labels' [] 0 listing := by
      rw [check, labels]
      rfl
    rw [same]
    cases result : checkFrom labels' [] 0 listing with
    | error fault =>
      rw [result] at second
      obtain ⟨index, found⟩ := second
      exact .inr ⟨false, index, fault, rfl, found, fun _ => first⟩
    | ok =>
      rw [result] at second
      refine .inl ⟨rfl, fun index fault violates => ?_⟩
      cases kind : fault.isDuplicateLabel with
      | true => exact CleanBefore.not_violates first kind violates
      | false => exact CleanBefore.not_violates second kind violates

theorem check_eq_ok_iff : listing.check = .ok () ↔ listing.Sound := by
  rcases check_cases listing with ⟨passed, sound⟩ | ⟨_, index, fault, failed, found, -⟩
  · exact iff_of_true passed sound
  · refine iff_of_false ?_ fun sound => sound index fault found.violates
    rw [failed]
    simp

/-- The pass that reports a fault. -/
theorem exists_first (rejected : listing.check = .error fault) :
    ∃ pass index, listing.First pass index fault ∧
      (pass = false → listing.CleanBefore true listing.length) := by
  rcases check_cases listing with ⟨passed, -⟩ | ⟨pass, index, fault', failed, found⟩
  · rw [rejected] at passed
    cases passed
  · obtain rfl : fault = fault' := Except.error.inj (rejected.symm.trans failed)
    exact ⟨pass, index, found⟩

/-- No two quadruples have the same thing in a part. -/
def Once {α β : Type} (part : Quadruple → β) (thing : α → β) (listing : Listing) : Prop :=
  ∀ (i j : Nat) (p q : Quadruple) (x : α), listing[i]? = some p → listing[j]? = some q →
    part p = thing x → part q = thing x → i = j

theorem once_of_earlier {α β : Type} {part : Quadruple → β} {thing : α → β}
    (h : ∀ (i j : Nat) (p q : Quadruple) (x : α), i < j → listing[i]? = some p →
      listing[j]? = some q → part p = thing x → part q ≠ thing x) :
    listing.Once part thing := by
  intro i j p q x hi hj hp hq
  rcases Nat.lt_trichotomy i j with before | same | behind
  · exact absurd hq (h i j p q x before hi hj hp)
  · exact same
  · exact absurd hp (h j i q p x behind hj hi hq)

/-- A listing without any of the four faults. -/
structure Regular (listing : Listing) : Prop where
  labels : listing.Once Quadruple.operation Operation.label
  jumps : ∀ q ∈ listing, ∀ l, q.operation ∈ [.ifFalse, .ifTrue, .goto] → q.result = .label l →
    ∃ p ∈ listing, p.operation = .label l
  reads : ∀ (i : Nat) (q : Quadruple) (t : Temporary), listing[i]? = some q →
    q.first = .temporary t ∨ q.second = .temporary t →
    ∃ j < i, ∃ p, listing[j]? = some p ∧ p.result = .temporary t
  temporaries : listing.Once Quadruple.result Operand.temporary

theorem sound_iff_regular : listing.Sound ↔ listing.Regular := by
  constructor
  · intro sound
    constructor
    case labels =>
      refine once_of_earlier fun i j p q l earlier hi hj hp hq => ?_
      exact sound j _ (.duplicateLabel hj hq earlier hi hp)
    case jumps =>
      intro q member l jump result
      obtain ⟨i, hi⟩ := List.mem_iff_getElem?.mp member
      by_contra missing
      refine sound i _ (.undefinedLabel hi jump result fun p member defines => ?_)
      exact missing ⟨p, member, defines⟩
    case reads =>
      intro i q t hi read
      by_contra unassigned
      refine sound i _ (.undefinedTemporary hi read fun j p before hj assigns => ?_)
      exact unassigned ⟨j, before, p, hj, assigns⟩
    case temporaries =>
      refine once_of_earlier fun i j p q t earlier hi hj hp hq => ?_
      exact sound j _ (.duplicateTemporary hj hq earlier hi hp)
  · intro regular index fault violates
    cases violates with
    | duplicateLabel at_ defines earlier at_' defines' =>
      exact absurd (regular.labels _ _ _ _ _ at_' at_ defines' defines) (Nat.ne_of_lt earlier)
    | undefinedLabel at_ jump result missing =>
      obtain ⟨p, member, defines⟩ := regular.jumps _ (List.mem_of_getElem? at_) _ jump result
      exact missing p member defines
    | undefinedTemporary at_ read unassigned =>
      obtain ⟨j, before, p, hj, assigns⟩ := regular.reads _ _ _ at_ read
      exact unassigned j p before hj assigns
    | duplicateTemporary at_ assigns earlier at_' assigns' =>
      exact absurd (regular.temporaries _ _ _ _ _ at_' at_ assigns' assigns) (Nat.ne_of_lt earlier)

/-- The check is exact.  A listing passes exactly if no two quadruples define the same label, every
label that is jumped to is defined, every temporary is assigned before the quadruple that reads
it, and no two quadruples assign the same temporary; a fault that is reported is a violation. -/
theorem check_exact (listing : Listing) :
    (listing.check = .ok () ↔ listing.Regular) ∧
      ∀ fault, listing.check = .error fault → ∃ index, listing.Violates index fault := by
  refine ⟨check_eq_ok_iff.trans sound_iff_regular, fun fault rejected => ?_⟩
  obtain ⟨_, index, found, -⟩ := exists_first rejected
  exact ⟨index, found.violates⟩

/-! ## Which fault is reported -/

theorem exists_isLeast_violation (h : listing.Violates index fault) :
    ∃ first, IsLeast {i | ∃ other, listing.Violates i other} first := by
  classical
  have violated : ∃ i, ∃ other, listing.Violates i other := ⟨index, fault, h⟩
  exact ⟨Nat.find violated, Nat.find_spec violated, fun _ => Nat.find_min' violated⟩

theorem First.isLeast_duplicateLabel (h : listing.First true index fault) :
    IsLeast {i | ∃ l, listing.Violates i (.duplicateLabel l)} index := by
  obtain ⟨l, rfl⟩ := ListingFault.isDuplicateLabel_iff.mp h.kind
  refine ⟨⟨l, h.violates⟩, ?_⟩
  rintro i ⟨m, violates⟩
  exact Nat.le_of_not_lt fun earlier => h.clean i _ earlier rfl violates

/-- Without labels defined twice, the second pass reports the first violation of all. -/
theorem First.isLeast (h : listing.First false index fault)
    (none : listing.CleanBefore true listing.length) :
    IsLeast {i | ∃ other, listing.Violates i other} index := by
  refine ⟨⟨fault, h.violates⟩, ?_⟩
  rintro i ⟨other, violates⟩
  cases kind : other.isDuplicateLabel with
  | true => exact absurd violates (none.not_violates kind)
  | false => exact Nat.le_of_not_lt fun earlier => h.clean i other earlier kind violates

/-- A listing that does not pass has a first quadruple with a violation.  The fault that is
reported is one of this quadruple exactly if this quadruple defines a label again or none does.
Otherwise it is the label that is the first to be defined again, further down. -/
theorem check_reports {listing : Listing} {fault : ListingFault}
    (rejected : listing.check = .error fault) :
    ∃ first, IsLeast {i | ∃ other, listing.Violates i other} first ∧
      (listing.Violates first fault ↔
        (∃ l, listing.Violates first (.duplicateLabel l)) ∨
          ∀ i l, ¬listing.Violates i (.duplicateLabel l)) ∧
      (¬listing.Violates first fault →
        ∃ again, first < again ∧ listing.Violates again fault ∧
          IsLeast {i | ∃ l, listing.Violates i (.duplicateLabel l)} again) := by
  obtain ⟨pass, index, found, second⟩ := exists_first rejected
  cases pass with
  | true =>
    obtain ⟨first, least⟩ := exists_isLeast_violation found.violates
    have again := found.isLeast_duplicateLabel
    have le : first ≤ index := least.2 ⟨fault, found.violates⟩
    refine ⟨first, least, ⟨fun violates => ?_, ?_⟩,
      fun differs => ⟨index, ?_, found.violates, again⟩⟩
    · obtain ⟨l, rfl⟩ := ListingFault.isDuplicateLabel_iff.mp found.kind
      exact .inl ⟨l, violates⟩
    · rintro (here | none)
      · obtain rfl : first = index := Nat.le_antisymm le (again.2 here)
        exact found.violates
      · obtain ⟨l, violates⟩ := again.1
        exact absurd violates (none index l)
    · refine Nat.lt_of_le_of_ne le ?_
      rintro rfl
      exact differs found.violates
  | false =>
    have none := second rfl
    exact ⟨index, found.isLeast none,
      iff_of_true found.violates (.inr fun i l => none.not_violates rfl),
      fun differs => absurd found.violates differs⟩

/-- A jump to nowhere stands before a label that is defined again and reads what nothing assigns. -/
theorem check_reports_jump :
    let listing : Listing :=
      [.label ⟨0⟩, .goto ⟨7⟩, ⟨.label ⟨0⟩, .temporary ⟨3⟩, .absent, .absent⟩]
    listing.check = .error (.duplicateLabel ⟨0⟩) ∧
      ∃ first, IsLeast {i | ∃ other, listing.Violates i other} first ∧
        (listing.Violates first (.duplicateLabel ⟨0⟩) ↔
          (∃ l, listing.Violates first (.duplicateLabel l)) ∨
            ∀ i l, ¬listing.Violates i (.duplicateLabel l)) ∧
        (¬listing.Violates first (.duplicateLabel ⟨0⟩) →
          ∃ again, first < again ∧ listing.Violates again (.duplicateLabel ⟨0⟩) ∧
            IsLeast {i | ∃ l, listing.Violates i (.duplicateLabel l)} again) := by
  intro listing
  have rejected : listing.check = .error (.duplicateLabel ⟨0⟩) := by decide
  exact ⟨rejected, check_reports rejected⟩

/-- A read of what nothing assigns is not reported where a label is defined again after it. -/
theorem check_passes_over_first :
    let listing : Listing := [.assign (.temporary ⟨5⟩) "x", .label ⟨1⟩, .label ⟨1⟩]
    IsLeast {i | ∃ other, listing.Violates i other} 0 ∧
      listing.check = .error (.duplicateLabel ⟨1⟩) ∧
      ¬listing.Violates 0 (.duplicateLabel ⟨1⟩) := by
  intro listing
  have read : listing.Violates 0 (.undefinedTemporary ⟨5⟩ 0) := by
    refine .undefinedTemporary rfl (by decide) fun earlier _ impossible => ?_
    exact absurd impossible (Nat.not_lt_zero earlier)
  refine ⟨⟨⟨_, read⟩, fun i _ => Nat.zero_le i⟩, by decide, fun violates => ?_⟩
  cases violates with
  | duplicateLabel _ _ earlier => exact Nat.not_lt_zero _ earlier

/-! ## Destinations of jumps -/

/-- A label is found where it stands. -/
theorem exists_of_position? {l : Label} {there : Nat} (h : listing.position? l = some there) :
    ∃ p, listing[there]? = some p ∧ p.label? = some l := by
  obtain ⟨inside, defines, -⟩ := List.findIdx?_eq_some_iff_getElem.mp h
  exact ⟨listing[there], List.getElem?_eq_getElem inside, of_decide_eq_true defines⟩

theorem exists_position? {l : Label} {p : Quadruple} (member : p ∈ listing)
    (defines : p.label? = some l) : ∃ there, listing.position? l = some there := by
  rw [← Option.isSome_iff_exists, position?, List.findIdx?_isSome, List.any_eq_true]
  exact ⟨p, member, decide_eq_true defines⟩

theorem landing?_of_result {l : Label} (jump : q.isJump = true) (result : q.result = .label l) :
    listing.landing? q = listing.position? l := by
  simp [landing?, Quadruple.target?, jump, result, Operand.label?]

theorem landing?_of_no_label (result : ∀ l, q.result ≠ .label l) : listing.landing? q = none := by
  have unlabelled : q.result.label? = none := by
    cases same : q.result with
    | label l => exact absurd same (result l)
    | _ => rfl
  simp [landing?, Quadruple.target?, unlabelled]

end Listing

/-- A jump that leads nowhere stops the machine for good. -/
theorem Machine.step?_of_no_landing {V : Type} (arithmetic : Arithmetic V) {listing : Listing}
    {q : Quadruple} {s : State V} (at_ : listing[s.index]? = some q) (jump : q.isJump = true)
    (nowhere : listing.landing? q = none) : step? arithmetic listing s = none := by
  rw [Quadruple.isJump] at jump
  unfold step?
  rw [at_]
  cases operation : q.operation with
  | goto => simp [operation, nowhere]
  | ifFalse => simp [operation, nowhere]
  | ifTrue => simp [operation, nowhere]
  | binary | assign | returning | label =>
    rw [operation] at jump
    cases jump

namespace Listing

/-- A jump that holds a label leads to the one quadruple that defines it. -/
theorem Regular.exists_landing {listing : Listing} (regular : listing.Regular) {q : Quadruple}
    (member : q ∈ listing) (jump : q.isJump = true) {l : Label} (result : q.result = .label l) :
    ∃ there, listing.landing? q = some there ∧
      ∀ i, listing[i]?.bind Quadruple.label? = some l ↔ i = there := by
  have target : q.target? = some l := by
    simp [Quadruple.target?, jump, result, Operand.label?]
  obtain ⟨p, defined, defines⟩ :=
    regular.jumps q member l (target?_eq_some_iff.mp target).1 result
  obtain ⟨there, found⟩ := exists_position? defined (label?_eq_some_iff.mpr defines)
  obtain ⟨p', at_, defines'⟩ := exists_of_position? found
  refine ⟨there, (landing?_of_result jump result).trans found, fun i => ⟨fun here => ?_, ?_⟩⟩
  · obtain ⟨p'', at_', defines''⟩ := Option.bind_eq_some_iff.mp here
    exact regular.labels i there p'' p' l at_' at_ (label?_eq_some_iff.mp defines'')
      (label?_eq_some_iff.mp defines')
  · rintro rfl
    exact Option.bind_eq_some_iff.mpr ⟨p', at_, defines'⟩

/-- In a listing that passes, a jump leads to the one quadruple that defines its label exactly if
it holds a label in its result.  The check lets other jumps through, and they stop the machine
for good. -/
theorem jump_destination {listing : Listing} (accepted : listing.check = .ok ()) {q : Quadruple}
    (member : q ∈ listing) (jump : q.isJump = true) :
    ((∃ l there, q.result = .label l ∧ listing.landing? q = some there ∧
        ∀ i, listing[i]?.bind Quadruple.label? = some l ↔ i = there) ↔
      ∃ l, q.result = .label l) ∧
    ((∀ l, q.result ≠ .label l) → ∀ (V : Type) (arithmetic : Arithmetic V) (s : Machine.State V),
      listing[s.index]? = some q → Machine.step? arithmetic listing s = none) := by
  have regular : listing.Regular := sound_iff_regular.mp (check_eq_ok_iff.mp accepted)
  refine ⟨⟨?_, ?_⟩, fun result V arithmetic s at_ => ?_⟩
  · rintro ⟨l, _, result, _⟩
    exact ⟨l, result⟩
  · rintro ⟨l, result⟩
    obtain ⟨there, lands, only⟩ := regular.exists_landing member jump result
    exact ⟨l, there, result, lands, only⟩
  · exact Machine.step?_of_no_landing arithmetic at_ jump (landing?_of_no_label result)

/-- A test jumps back to a label that nothing else defines. -/
theorem jump_destination_back :
    let listing : Listing :=
      [.label ⟨4⟩, .binary .add (.name "a") (.name "b") ⟨0⟩, .ifTrue (.temporary ⟨0⟩) ⟨4⟩]
    let q : Quadruple := .ifTrue (.temporary ⟨0⟩) ⟨4⟩
    listing.check = .ok () ∧ q ∈ listing ∧ q.isJump = true ∧
      ∃ l there, q.result = .label l ∧ listing.landing? q = some there ∧
        ∀ i, listing[i]?.bind Quadruple.label? = some l ↔ i = there := by
  intro listing q
  have accepted : listing.check = .ok () := by decide
  have member : q ∈ listing := by decide
  exact ⟨accepted, member, rfl, (jump_destination accepted member rfl).1.mpr ⟨⟨4⟩, rfl⟩⟩

/-- A jump that holds no label passes. -/
theorem check_accepts_unlabelled_jump :
    let q : Quadruple := ⟨.goto, .absent, .absent, .absent⟩
    check [q] = .ok () ∧ q.isJump = true ∧ ∀ l, q.result ≠ .label l := by
  intro q
  exact ⟨by decide, rfl, fun l impossible => Operand.noConfusion impossible⟩

end Listing

end Quadrupler
