import Quadrupler.Lowering.Error
import Quadrupler.Quadruple.Listing
set_option autoImplicit false

/-!
# Emitting code

Specification: sections 4.3 and 10.6 (counters, labels drawn when they are first named).

An emitter takes the counters of temporaries and labels and gives its result, the code it
emits, and the counters after it.  What it emits does not depend on the code before it.
One that fails has emitted what came before the failure, and the numbers it drew are
spent.
-/

namespace Quadrupler

/-- How many temporaries and labels have been drawn.  The counts have no largest value here;
numbers of 32 bits are as good for code that draws fewer than 2 ^ 32 of each. -/
structure Counters where
  temporaries : Nat
  labels : Nat
  deriving DecidableEq, Repr, Inhabited

/-- Nothing has been drawn. -/
def Counters.zero : Counters := ⟨0, 0⟩

/-- What comes out of an emitter. -/
structure Emission (α : Type) where
  result : Except LoweringError α
  code : Listing
  counters : Counters

/-- A computation that draws temporaries and labels and emits code. -/
def Emit (α : Type) : Type := Counters → Emission α

namespace Emit

variable {α β : Type}

/-- A value, and no code. -/
protected def pure (a : α) : Emit α := fun counters => ⟨.ok a, [], counters⟩

/-- The code of both, one after the other, unless the first fails. -/
protected def bind (x : Emit α) (f : α → Emit β) : Emit β := fun counters =>
  match x counters with
  | ⟨.ok a, code, counters⟩ =>
    let next := f a counters
    ⟨next.result, code ++ next.code, next.counters⟩
  | ⟨.error e, code, counters⟩ => ⟨.error e, code, counters⟩

instance : Monad Emit where
  pure := Emit.pure
  bind := Emit.bind

/-- An error, and no code. -/
def fail (e : LoweringError) : Emit α := fun counters => ⟨.error e, [], counters⟩

/-- One quadruple. -/
def emit (q : Quadruple) : Emit Unit := fun counters => ⟨.ok (), [q], counters⟩

/-- Draws a temporary. -/
def newTemporary : Emit Temporary := fun counters =>
  ⟨.ok ⟨counters.temporaries⟩, [], { counters with temporaries := counters.temporaries + 1 }⟩

/-- Draws a label. -/
def newLabel : Emit Label := fun counters =>
  ⟨.ok ⟨counters.labels⟩, [], { counters with labels := counters.labels + 1 }⟩

/-! ## One lemma per operation -/

@[simp] theorem pure_apply (a : α) (counters : Counters) :
    (pure a : Emit α) counters = ⟨.ok a, [], counters⟩ := rfl

@[simp] theorem fail_apply (e : LoweringError) (counters : Counters) :
    (fail e : Emit α) counters = ⟨.error e, [], counters⟩ := rfl

@[simp] theorem emit_apply (q : Quadruple) (counters : Counters) :
    emit q counters = ⟨.ok (), [q], counters⟩ := rfl

@[simp] theorem newTemporary_apply (counters : Counters) :
    newTemporary counters =
      ⟨.ok ⟨counters.temporaries⟩, [], ⟨counters.temporaries + 1, counters.labels⟩⟩ := rfl

@[simp] theorem newLabel_apply (counters : Counters) :
    newLabel counters =
      ⟨.ok ⟨counters.labels⟩, [], ⟨counters.temporaries, counters.labels + 1⟩⟩ := rfl

theorem bind_ok {x : Emit α} {counters after : Counters} {a : α} {code : Listing}
    (h : x counters = ⟨.ok a, code, after⟩) (f : α → Emit β) :
    (x >>= f) counters = ⟨(f a after).result, code ++ (f a after).code, (f a after).counters⟩ := by
  show Emit.bind x f counters = _
  simp only [Emit.bind, h]

theorem bind_error {x : Emit α} {counters after : Counters} {e : LoweringError} {code : Listing}
    (h : x counters = ⟨.error e, code, after⟩) (f : α → Emit β) :
    (x >>= f) counters = ⟨.error e, code, after⟩ := by
  show Emit.bind x f counters = _
  simp only [Emit.bind, h]

protected theorem bind_pure (x : Emit α) : Emit.bind x Emit.pure = x := by
  funext counters
  rcases h : x counters with ⟨_ | a, code, after⟩
  · simp [Emit.bind, h]
  · simp [Emit.bind, Emit.pure, h]

protected theorem pure_bind (a : α) (f : α → Emit β) : Emit.bind (Emit.pure a) f = f a := by
  funext counters
  simp [Emit.bind, Emit.pure]

protected theorem bind_assoc {γ : Type} (x : Emit α) (f : α → Emit β) (g : β → Emit γ) :
    Emit.bind (Emit.bind x f) g = Emit.bind x fun a => Emit.bind (f a) g := by
  funext counters
  rcases h : x counters with ⟨_ | a, code, after⟩
  · simp [Emit.bind, h]
  · rcases h' : f a after with ⟨_ | b, code', after'⟩
    · simp [Emit.bind, h, h']
    · simp [Emit.bind, h, h', List.append_assoc]

instance : LawfulMonad Emit :=
  LawfulMonad.mk' Emit Emit.bind_pure Emit.pure_bind Emit.bind_assoc

end Emit

end Quadrupler
