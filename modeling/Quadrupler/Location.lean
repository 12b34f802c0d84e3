set_option autoImplicit false

/-!
# Locations

Specification: sections 3 and 10.2 (line and column of a token, counted from one).

A place in a text, counted from one.  Columns count characters, whatever their
width in bytes or on a screen, and only a line feed starts a new line.
-/

namespace Quadrupler

/-- A line and a column of a text. -/
structure Location where
  line : Nat
  column : Nat
  deriving DecidableEq, Repr, Inhabited

namespace Location

/-- Where every text begins. -/
def start : Location := ⟨1, 1⟩

/-- The place right after one character. -/
def next (here : Location) (c : Char) : Location :=
  if c = '\n' then ⟨here.line + 1, 1⟩ else ⟨here.line, here.column + 1⟩

/-- The place right after some characters. -/
def after (here : Location) (cs : List Char) : Location := cs.foldl next here

/-- The wording of a place in messages. -/
def describe (here : Location) : String := s!"line {here.line}, column {here.column}"

@[simp] theorem after_nil (here : Location) : here.after [] = here := rfl

@[simp] theorem after_cons (here : Location) (c : Char) (cs : List Char) :
    here.after (c :: cs) = (here.next c).after cs := rfl

theorem after_append (here : Location) (cs ds : List Char) :
    here.after (cs ++ ds) = (here.after cs).after ds := List.foldl_append

end Location

end Quadrupler
