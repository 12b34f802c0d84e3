import Quadrupler.Lowering.Statement
set_option autoImplicit false

/-!
# Generators

Specification: sections 4.3, 9 and 10.6 (counters of an instance, the listing of several calls).

A generator collects the code of several emitters under one pair of counters.  It keeps
what a failing emitter has emitted and drawn.
-/

namespace Quadrupler

/-- The code so far, and what has been drawn for it. -/
structure Generator where
  listing : Listing
  counters : Counters
  deriving DecidableEq, Repr

namespace Generator

/-- A generator that nothing has been lowered with. -/
def empty : Generator := ⟨[], .zero⟩

/-- Appends the code of an emitter. -/
def run {α : Type} (generator : Generator) (x : Emit α) : Except LoweringError α × Generator :=
  let emission := x generator.counters
  (emission.result, ⟨generator.listing ++ emission.code, emission.counters⟩)

/-- Appends the code of a tree. -/
def lower (generator : Generator) (t : Tree) : Except LoweringError Unit × Generator :=
  generator.run (Lowering.statement t)

end Generator

/-- The code of a tree. -/
def lower (t : Tree) : Except LoweringError Listing :=
  match Generator.empty.lower t with
  | (.ok (), generator) => .ok generator.listing
  | (.error e, _) => .error e

end Quadrupler
