import Quadrupler.Quadruple.Flow
set_option autoImplicit false

/-!
# Temporaries that are awaited

A temporary is awaited at an index when some path from there reads it before any quadruple
of the path has assigned it.  On a path from the first quadruple, what is awaited has been
assigned unless it was awaited at the start already (`Path.exists_assignment`); so nothing
else has to be known of a listing than that it awaits nothing there.

`Awaits` counts steps, because a loop can only be left behind by an induction over them.
-/

namespace Quadrupler.Listing

variable {listing : Listing} {t : Temporary} {i n there : Nat} {x y : Operand} {l : Label}

/-- From the index, some path reads the temporary within so many steps and does not assign it
before. -/
inductive Awaits (listing : Listing) (t : Temporary) : Nat → Nat → Prop where
  | here {n index : Nat} {q : Quadruple} :
      listing[index]? = some q → t ∈ q.reads → Awaits listing t n index
  | later {n index next : Nat} {q : Quadruple} :
      listing[index]? = some q → q.writes? ≠ some t → next ∈ listing.successors index →
      Awaits listing t n next → Awaits listing t (n + 1) index

theorem Awaits.mono {m : Nat} (h : listing.Awaits t m i) (le : m ≤ n) : listing.Awaits t n i := by
  induction h generalizing n with
  | here at_ read => exact .here at_ read
  | later at_ unassigned next _ ih =>
    cases n with
    | zero => exact absurd le (Nat.not_succ_le_zero _)
    | succ n => exact .later at_ unassigned next (ih (Nat.le_of_succ_le_succ le))

/-! ## Paths -/

/-- What is awaited where a path has come to has been assigned on the way, or was awaited at
the start. -/
theorem Path.exists_assignment {passed : List Nat} (path : listing.Path passed i)
    (awaited : listing.Awaits t n i) (start : ∀ m, ¬listing.Awaits t m 0) :
    ∃ writer ∈ passed, ∃ q, listing[writer]? = some q ∧ q.writes? = some t := by
  induction path generalizing n with
  | start => exact absurd awaited (start n)
  | @step passed index next _ successor ih =>
    cases at_ : listing[index]? with
    | none => simp [successors, at_] at successor
    | some q =>
      by_cases assigns : q.writes? = some t
      · exact ⟨index, by simp, q, at_, assigns⟩
      · obtain ⟨writer, passes, assigned⟩ := ih (.later at_ assigns successor awaited)
        exact ⟨writer, List.mem_append_left _ passes, assigned⟩

/-! ## Where each quadruple leads -/

/-- Quadruples that compute, store or mark a place go on to the next one. -/
theorem successors_straight {q : Quadruple} (at_ : listing[i]? = some q)
    (straight : q.operation matches .binary _ | .assign | .label _) :
    listing.successors i = [i + 1] := by
  unfold successors
  rw [at_]
  cases operation : q.operation with
  | binary | assign | label => simp [operation]
  | returning | goto | ifFalse | ifTrue => simp [operation] at straight

theorem successors_returning (at_ : listing[i]? = some (.returning x)) :
    listing.successors i = [] := by
  unfold successors
  rw [at_]
  rfl

theorem successors_goto (at_ : listing[i]? = some (.goto l))
    (target : listing.position? l = some there) : listing.successors i = [there] := by
  have lands : listing.landing? (.goto l) = some there := target
  unfold successors
  rw [at_]
  exact congrArg Option.toList lands

/-- Both tests may go on or jump. -/
theorem successors_test {q : Quadruple} (at_ : listing[i]? = some q)
    (tests : q = .ifFalse x l ∨ q = .ifTrue x l) (target : listing.position? l = some there) :
    listing.successors i = [i + 1, there] := by
  have lands : listing.landing? q = some there := by
    rcases tests with rfl | rfl
    · exact target
    · exact target
  unfold successors
  rw [at_]
  rcases tests with rfl | rfl
  · exact congrArg (fun landing => (i + 1) :: landing.toList) lands
  · exact congrArg (fun landing => (i + 1) :: landing.toList) lands

/-! ## What is awaited before a quadruple -/

/-- A quadruple that does not read what is awaited does not assign it either, and a successor
awaits it too. -/
theorem Awaits.exists_successor {q : Quadruple} (h : listing.Awaits t n i)
    (at_ : listing[i]? = some q) (first : q.first ≠ .temporary t)
    (second : q.second ≠ .temporary t) :
    q.writes? ≠ some t ∧
      ∃ m, n = m + 1 ∧ ∃ next ∈ listing.successors i, listing.Awaits t m next := by
  have unread {x : Operand} (differs : x ≠ .temporary t) : t ∉ x.temporary?.toList := by
    cases x with
    | temporary u =>
      intro same
      obtain rfl : t = u := by simpa [Operand.temporary?] using same
      exact differs rfl
    | _ => nofun
  cases h with
  | here at_' read =>
    obtain rfl : q = _ := Option.some.inj (at_.symm.trans at_')
    rcases List.mem_append.mp read with read | read
    · exact absurd read (unread first)
    · exact absurd read (unread second)
  | later at_' unassigned successor after =>
    obtain rfl : q = _ := Option.some.inj (at_.symm.trans at_')
    exact ⟨unassigned, _, rfl, _, successor, after⟩

theorem Awaits.next {q : Quadruple} (h : listing.Awaits t n i) (at_ : listing[i]? = some q)
    (straight : q.operation matches .binary _ | .assign | .label _)
    (first : q.first ≠ .temporary t) (second : q.second ≠ .temporary t) :
    q.writes? ≠ some t ∧ ∃ m, n = m + 1 ∧ listing.Awaits t m (i + 1) := by
  obtain ⟨unassigned, m, rfl, next, successor, after⟩ := h.exists_successor at_ first second
  rw [successors_straight at_ straight, List.mem_singleton] at successor
  exact ⟨unassigned, m, rfl, successor ▸ after⟩

theorem Awaits.label (h : listing.Awaits t n i) (at_ : listing[i]? = some (.label l)) :
    ∃ m, n = m + 1 ∧ listing.Awaits t m (i + 1) :=
  (h.next at_ rfl nofun nofun).2

theorem Awaits.after_label (h : listing.Awaits t n i) (at_ : listing[i]? = some (.label l)) :
    listing.Awaits t n (i + 1) := by
  obtain ⟨m, rfl, after⟩ := h.label at_
  exact after.mono (Nat.le_succ m)

theorem Awaits.after_goto (h : listing.Awaits t n i) (at_ : listing[i]? = some (.goto l))
    (target : listing.position? l = some there) : listing.Awaits t n there := by
  obtain ⟨-, m, rfl, next, successor, after⟩ := h.exists_successor at_ nofun nofun
  rw [successors_goto at_ target, List.mem_singleton] at successor
  exact (successor ▸ after).mono (Nat.le_succ m)

theorem Awaits.after_test {q : Quadruple} (h : listing.Awaits t n i) (at_ : listing[i]? = some q)
    (tests : q = .ifFalse x l ∨ q = .ifTrue x l) (unread : x ≠ .temporary t)
    (target : listing.position? l = some there) :
    listing.Awaits t n (i + 1) ∨ listing.Awaits t n there := by
  have first : q.first ≠ .temporary t := by
    rcases tests with rfl | rfl
    · exact unread
    · exact unread
  have second : q.second ≠ .temporary t := by
    rcases tests with rfl | rfl
    · exact nofun
    · exact nofun
  obtain ⟨-, m, rfl, next, successor, after⟩ := h.exists_successor at_ first second
  rw [successors_test at_ tests target, List.mem_cons, List.mem_singleton] at successor
  have soon := after.mono (Nat.le_succ m)
  rcases successor with rfl | rfl
  · exact .inl soon
  · exact .inr soon

theorem Awaits.after_assign {name : String} (h : listing.Awaits t n i)
    (at_ : listing[i]? = some (.assign x name)) (unread : x ≠ .temporary t) :
    listing.Awaits t n (i + 1) := by
  obtain ⟨-, m, rfl, after⟩ := h.next at_ rfl unread nofun
  exact after.mono (Nat.le_succ m)

theorem Awaits.after_binary {op : BinaryOp} {u : Temporary} (h : listing.Awaits t n i)
    (at_ : listing[i]? = some (.binary op x y u)) (hx : x ≠ .temporary t)
    (hy : y ≠ .temporary t) : t ≠ u ∧ listing.Awaits t n (i + 1) := by
  obtain ⟨unassigned, m, rfl, after⟩ := h.next at_ rfl hx hy
  refine ⟨?_, after.mono (Nat.le_succ m)⟩
  intro same
  exact unassigned (congrArg some same.symm)

theorem not_awaits_returning (at_ : listing[i]? = some (.returning x)) (unread : x ≠ .temporary t) :
    ¬listing.Awaits t n i := by
  intro h
  obtain ⟨-, m, rfl, next, successor, -⟩ := h.exists_successor at_ unread nofun
  rw [successors_returning at_] at successor
  cases successor

/-! ## Pieces of code -/

/-- What is awaited at the first index is awaited, as soon, at the second: the code between
them assigns whatever it reads, the value of one operand apart. -/
def Defers (listing : Listing) (given : Operand) (start stop : Nat) : Prop :=
  ∀ (t : Temporary) (n : Nat), given ≠ .temporary t →
    listing.Awaits t n start → listing.Awaits t n stop

section

variable {given : Operand} {start middle stop : Nat}

theorem Defers.refl (listing : Listing) (given : Operand) (start : Nat) :
    listing.Defers given start start :=
  fun _ _ _ awaited => awaited

theorem Defers.trans (first : listing.Defers given start middle)
    (second : listing.Defers given middle stop) : listing.Defers given start stop := by
  intro t n other awaited
  exact second t n other (first t n other awaited)

theorem Defers.congr_stop {stop' : Nat} (h : listing.Defers given start stop)
    (same : stop' = stop) : listing.Defers given start stop' :=
  same ▸ h

theorem Defers.append {code code' : Listing}
    (first : listing.Defers given start (start + code.length))
    (second : listing.Defers given (start + code.length) (start + code.length + code'.length)) :
    listing.Defers given start (start + (code ++ code').length) := by
  refine (first.trans second).congr_stop ?_
  rw [List.length_append, Nat.add_assoc]

/-- A loop begins with a label, so each round takes a step from those that are left. -/
theorem defers_loop (mark : listing[start]? = some (.label l))
    (round : ∀ (t : Temporary) (n : Nat), given ≠ .temporary t →
      listing.Awaits t n (start + 1) → listing.Awaits t n start ∨ listing.Awaits t n stop) :
    listing.Defers given start stop := by
  intro t n other
  induction n with
  | zero =>
    intro awaited
    obtain ⟨m, impossible, -⟩ := awaited.label mark
    cases impossible
  | succ n ih =>
    intro awaited
    obtain ⟨m, same, inside⟩ := awaited.label mark
    obtain rfl : n = m := Nat.succ.inj same
    rcases round t n other inside with again | left
    · exact (ih again).mono (Nat.le_succ n)
    · exact left.mono (Nat.le_succ n)

end

end Quadrupler.Listing
