import Quadrupler.Quadruple.Machine
import Quadrupler.Tree.Basic
set_option autoImplicit false

/-!
# What programs mean

Specification: sections 4.3 and 10.6 (meaning of the control structures).

The structured execution of a tree, without labels and jumps.  A return ends everything
around it.  A `switch` runs the body of the first arm that fits, a `default` fitting
always, and then ends.
-/

namespace Quadrupler.Tree

variable {V : Type}

/-- The value of an expression, if the tree is one. -/
def value? (arithmetic : Arithmetic V) (names : Valuation V) : Tree → Option V
  | ⟨.number text, _, _, _, _⟩ => some (names text)
  | ⟨.identifier name, _, _, _, _⟩ => some (names name)
  | ⟨.binary op, _, some left, some right, _⟩ => do
    let v ← value? arithmetic names left
    let w ← value? arithmetic names right
    return arithmetic.apply op v w
  | _ => none

/-- The block of the `else` among the companions of an `if`. -/
def elseBody? : List Tree → Option Tree
  | ⟨.elseBranch, _, _, body, _⟩ :: _ => body
  | _ => none

mutual

/-- Running the tree from some values ends so, with these values. -/
inductive Executes (arithmetic : Arithmetic V) :
    Tree → Valuation V → Valuation V → Completion V → Prop where
  | assign {t e target : Tree} {name : String} {names : Valuation V} {v : V} :
      t.kind = .assign → t.left = some target → target.kind = .identifier name →
      t.right = some e → value? arithmetic names e = some v →
      Executes arithmetic t names (names.set name v) .finished
  | increment {t target : Tree} {name : String} {names : Valuation V} :
      t.kind = .step .increment → t.left = some target → target.kind = .identifier name →
      Executes arithmetic t names
        (names.set name (arithmetic.apply .add (names name) (names "1"))) .finished
  | decrement {t target : Tree} {name : String} {names : Valuation V} :
      t.kind = .step .decrement → t.left = some target → target.kind = .identifier name →
      Executes arithmetic t names
        (names.set name (arithmetic.apply .sub (names name) (names "1"))) .finished
  | returning {t e : Tree} {names : Valuation V} {v : V} :
      t.kind = .returning → t.right = some e → value? arithmetic names e = some v →
      Executes arithmetic t names names (.returned v)
  | ifHolds {t e body : Tree} {names final : Valuation V} {v : V} {completion : Completion V} :
      t.kind = .ifThen → t.left = some e → t.right = some body →
      value? arithmetic names e = some v → arithmetic.holds v = true →
      Executes arithmetic body names final completion →
      Executes arithmetic t names final completion
  | ifFails {t e : Tree} {names final : Valuation V} {v : V} {completion : Completion V} :
      t.kind = .ifThen → t.left = some e →
      value? arithmetic names e = some v → arithmetic.holds v = false →
      ExecutesSlot arithmetic (elseBody? t.statements) names final completion →
      Executes arithmetic t names final completion
  | whileLoop {t e body : Tree} {names final : Valuation V} {completion : Completion V} :
      t.kind = .whileLoop → t.left = some e → t.right = some body →
      Repeats arithmetic e body none names final completion →
      Executes arithmetic t names final completion
  | forLoop {t e body first advance : Tree} {names middle final : Valuation V}
      {completion : Completion V} :
      t.kind = .forLoop → t.left = some e → t.right = some body →
      t.statements = [first, advance] → Executes arithmetic first names middle .finished →
      Repeats arithmetic e body (some advance) middle final completion →
      Executes arithmetic t names final completion
  | forLoopReturns {t first advance : Tree} {names final : Valuation V} {v : V} :
      t.kind = .forLoop → t.statements = [first, advance] →
      Executes arithmetic first names final (.returned v) →
      Executes arithmetic t names final (.returned v)
  | doLoopEnds {t e body : Tree} {names final : Valuation V} {v : V} :
      t.kind = .doLoop → t.left = some e → t.right = some body →
      Executes arithmetic body names final .finished →
      value? arithmetic final e = some v → arithmetic.holds v = false →
      Executes arithmetic t names final .finished
  | doLoopAgain {t e body : Tree} {names middle final : Valuation V} {v : V}
      {completion : Completion V} :
      t.kind = .doLoop → t.left = some e → t.right = some body →
      Executes arithmetic body names middle .finished →
      value? arithmetic middle e = some v → arithmetic.holds v = true →
      Executes arithmetic t middle final completion →
      Executes arithmetic t names final completion
  | doLoopReturns {t body : Tree} {names final : Valuation V} {v : V} :
      t.kind = .doLoop → t.right = some body →
      Executes arithmetic body names final (.returned v) →
      Executes arithmetic t names final (.returned v)
  | switch {t e : Tree} {names final : Valuation V} {v : V} {completion : Completion V} :
      t.kind = .switch → t.left = some e → value? arithmetic names e = some v →
      ExecutesArms arithmetic v t.statements names final completion →
      Executes arithmetic t names final completion
  | sequence {t : Tree} {names middle final : Valuation V} {completion : Completion V} :
      t.isSequence = true → ExecutesSlot arithmetic t.left names middle .finished →
      ExecutesSlot arithmetic t.right middle final completion →
      Executes arithmetic t names final completion
  | sequenceReturns {t : Tree} {names final : Valuation V} {v : V} :
      t.isSequence = true → ExecutesSlot arithmetic t.left names final (.returned v) →
      Executes arithmetic t names final (.returned v)
  | block {t : Tree} {names final : Valuation V} {completion : Completion V} :
      t.kind = .block → ExecutesAll arithmetic t.statements names final completion →
      Executes arithmetic t names final completion
  | empty {t : Tree} {names : Valuation V} :
      t.kind = .empty → Executes arithmetic t names names .finished
  | expression {t : Tree} {names : Valuation V} {v : V} :
      value? arithmetic names t = some v → Executes arithmetic t names names .finished

/-- What a slot holds, if it holds anything. -/
inductive ExecutesSlot (arithmetic : Arithmetic V) :
    Option Tree → Valuation V → Valuation V → Completion V → Prop where
  | none {names : Valuation V} : ExecutesSlot arithmetic none names names .finished
  | some {t : Tree} {names final : Valuation V} {completion : Completion V} :
      Executes arithmetic t names final completion →
      ExecutesSlot arithmetic (some t) names final completion

/-- One statement after the other, up to the first that returns. -/
inductive ExecutesAll (arithmetic : Arithmetic V) :
    List Tree → Valuation V → Valuation V → Completion V → Prop where
  | nil {names : Valuation V} : ExecutesAll arithmetic [] names names .finished
  | cons {t : Tree} {ts : List Tree} {names middle final : Valuation V}
      {completion : Completion V} :
      Executes arithmetic t names middle .finished →
      ExecutesAll arithmetic ts middle final completion →
      ExecutesAll arithmetic (t :: ts) names final completion
  | returns {t : Tree} {ts : List Tree} {names final : Valuation V} {v : V} :
      Executes arithmetic t names final (.returned v) →
      ExecutesAll arithmetic (t :: ts) names final (.returned v)

/-- The body, and what advances the loop, as long as the test holds. -/
inductive Repeats (arithmetic : Arithmetic V) :
    Tree → Tree → Option Tree → Valuation V → Valuation V → Completion V → Prop where
  | ends {e body : Tree} {advance : Option Tree} {names : Valuation V} {v : V} :
      value? arithmetic names e = some v → arithmetic.holds v = false →
      Repeats arithmetic e body advance names names .finished
  | again {e body : Tree} {advance : Option Tree} {names middle next final : Valuation V} {v : V}
      {completion : Completion V} :
      value? arithmetic names e = some v → arithmetic.holds v = true →
      Executes arithmetic body names middle .finished →
      ExecutesSlot arithmetic advance middle next .finished →
      Repeats arithmetic e body advance next final completion →
      Repeats arithmetic e body advance names final completion
  | bodyReturns {e body : Tree} {advance : Option Tree} {names final : Valuation V} {v w : V} :
      value? arithmetic names e = some v → arithmetic.holds v = true →
      Executes arithmetic body names final (.returned w) →
      Repeats arithmetic e body advance names final (.returned w)
  | advanceReturns {e body : Tree} {advance : Option Tree} {names middle final : Valuation V}
      {v w : V} :
      value? arithmetic names e = some v → arithmetic.holds v = true →
      Executes arithmetic body names middle .finished →
      ExecutesSlot arithmetic advance middle final (.returned w) →
      Repeats arithmetic e body advance names final (.returned w)

/-- The arms of a switch on a value. -/
inductive ExecutesArms (arithmetic : Arithmetic V) :
    V → List Tree → Valuation V → Valuation V → Completion V → Prop where
  | nil {v : V} {names : Valuation V} : ExecutesArms arithmetic v [] names names .finished
  | fits {v w : V} {arm constant body : Tree} {arms : List Tree} {names final : Valuation V}
      {completion : Completion V} :
      arm.kind = .caseArm → arm.left = some constant → arm.right = some body →
      value? arithmetic names constant = some w →
      arithmetic.holds (arithmetic.apply .eq v w) = true →
      Executes arithmetic body names final completion →
      ExecutesArms arithmetic v (arm :: arms) names final completion
  | differs {v w : V} {arm constant : Tree} {arms : List Tree} {names final : Valuation V}
      {completion : Completion V} :
      arm.kind = .caseArm → arm.left = some constant →
      value? arithmetic names constant = some w →
      arithmetic.holds (arithmetic.apply .eq v w) = false →
      ExecutesArms arithmetic v arms names final completion →
      ExecutesArms arithmetic v (arm :: arms) names final completion
  | otherwise {v : V} {arm body : Tree} {arms : List Tree} {names final : Valuation V}
      {completion : Completion V} :
      arm.kind = .defaultArm → arm.right = some body →
      Executes arithmetic body names final completion →
      ExecutesArms arithmetic v (arm :: arms) names final completion

end

end Quadrupler.Tree
