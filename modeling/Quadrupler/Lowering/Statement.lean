import Quadrupler.Lowering.Emit
set_option autoImplicit false

/-!
# Lowering trees to quadruples

Specification: sections 4.3 and 10.6 (lowering rules).

Operands come before the operation that uses them, and a node's children are looked for
before it emits anything.  A label is drawn right before the quadruple that names it
first, so the labels of what is nested lie between those of what nests it.

* `if`: test, jump over the block, block, jump over the other block, other block.
* `while` and `for`: label, test, jump out, body, advance, jump back.
* `do`: label, body, test, jump back.
* `switch`: the discriminant once; then the arms in order.  A case compares and skips its
  body when the values differ; a default runs untested.  Every body ends with a jump to
  the label behind the switch, so no arm runs into the next.
-/

namespace Quadrupler.Lowering

open Emit

/-- What a step adds or subtracts. -/
def stepAmount : String := "1"

/-- Fails for want of a child of the node. -/
def missing {α : Type} (kind : Tree.Kind) (location : Location) (role : Role) : Emit α :=
  fail (.missingChild kind.tag location role)

/-- Fails because of where the node stands. -/
def misplaced {α : Type} (kind : Tree.Kind) (location : Location) (context : Context) : Emit α :=
  fail (.misplaced kind.tag location context)

/-- The variable that a node assigns. -/
def target (kind : Tree.Kind) (location : Location) : Option Tree → Emit String
  | none => missing kind location .target
  | some ⟨.identifier name, _, _, _, _⟩ => pure name
  | some t => fail (.invalidTarget t.tag t.location)

/-- Emits the code of an expression and returns where its value is. -/
def expression : Tree → Emit Operand
  | ⟨.number text, _, _, _, _⟩ => pure (.name text)
  | ⟨.identifier name, _, _, _, _⟩ => pure (.name name)
  | ⟨.binary op, location, left, right, _⟩ =>
    match left with
    | none => missing (.binary op) location .leftOperand
    | some left => do
      let first ← expression left
      match right with
      | none => missing (.binary op) location .rightOperand
      | some right => do
        let second ← expression right
        let t ← newTemporary
        emit (.binary op first second t)
        return .temporary t
  | ⟨kind, location, _, _, _⟩ => misplaced kind location .insideExpression

/-- Fails unless the companions of an `if` are at most one `else` with its block. -/
def companions : List Tree → Emit Unit
  | [] => pure ()
  | ⟨.elseBranch, location, _, none, _⟩ :: _ => missing .elseBranch location .elseBlock
  | ⟨.elseBranch, _, _, some _, _⟩ :: others =>
    match others with
    | [] => pure ()
    | other :: _ => misplaced other.kind other.location .companionOfIf
  | other :: _ => misplaced other.kind other.location .companionOfIf

/-- A loop that tests first, with what advances it behind its body. -/
def loop (test : Tree) (body advance : Emit Unit) : Emit Unit := do
  let start ← newLabel
  emit (.label start)
  let value ← expression test
  let done ← newLabel
  emit (.ifFalse value done)
  body
  advance
  emit (.goto start)
  emit (.label done)

/-- The label behind a switch, drawn when it is first needed. -/
def behind : Option Label → Emit Label
  | some l => pure l
  | none => newLabel

mutual

/-- Emits the code of a statement. -/
def statement : Tree → Emit Unit
  | ⟨.assign, location, left, right, _⟩ => do
    let name ← target .assign location left
    match right with
    | none => missing .assign location .value
    | some right => do
      let value ← expression right
      emit (.assign value name)
  | ⟨.step op, location, left, _, _⟩ => do
    let name ← target (.step op) location left
    let t ← newTemporary
    emit (.binary op.arithmetic (.name name) (.name stepAmount) t)
    emit (.assign (.temporary t) name)
  | ⟨.returning, location, _, right, _⟩ =>
    match right with
    | none => missing .returning location .value
    | some right => do
      let value ← expression right
      emit (.returning value)
  | ⟨.ifThen, location, left, right, others⟩ =>
    match left, right with
    | none, _ => missing .ifThen location .condition
    | some _, none => missing .ifThen location .thenBlock
    | some test, some body => do
      companions others
      let value ← expression test
      let otherwise ← newLabel
      emit (.ifFalse value otherwise)
      statement body
      let done ← newLabel
      emit (.goto done)
      emit (.label otherwise)
      alternative others
      emit (.label done)
  | ⟨.whileLoop, location, left, right, _⟩ =>
    match left, right with
    | none, _ => missing .whileLoop location .condition
    | some _, none => missing .whileLoop location .body
    | some test, some body => loop test (statement body) (pure ())
  | ⟨.forLoop, location, left, right, head⟩ =>
    match left, right with
    | none, _ => missing .forLoop location .condition
    | some _, none => missing .forLoop location .body
    | some test, some body =>
      match head with
      | [first, advance] => do
        statement first
        loop test (statement body) (statement advance)
      | _ => missing .forLoop location .headStatements
  | ⟨.doLoop, location, left, right, _⟩ =>
    match left, right with
    | none, _ => missing .doLoop location .condition
    | some _, none => missing .doLoop location .body
    | some test, some body => do
      let start ← newLabel
      emit (.label start)
      statement body
      let value ← expression test
      emit (.ifTrue value start)
  | ⟨.switch, location, left, _, armTrees⟩ =>
    match left with
    | none => missing .switch location .discriminant
    | some discriminant => do
      let value ← expression discriminant
      let done ← arms value none armTrees
      emit (.label (← behind done))
  | ⟨.separator, _, left, right, _⟩ => do
    slot left
    slot right
  | ⟨.sequence, _, left, right, _⟩ => do
    slot left
    slot right
  | ⟨.block, _, _, _, body⟩ => statements body
  | ⟨.empty, _, _, _, _⟩ => pure ()
  | ⟨.elseBranch, location, _, _, _⟩ => misplaced .elseBranch location .outsideIf
  | ⟨.caseArm, location, _, _, _⟩ => misplaced .caseArm location .outsideSwitch
  | ⟨.defaultArm, location, _, _, _⟩ => misplaced .defaultArm location .outsideSwitch
  | ⟨.number _, _, _, _, _⟩ => pure ()
  | ⟨.identifier _, _, _, _, _⟩ => pure ()
  | ⟨.binary op, location, left, right, others⟩ => do
    let _ ← expression ⟨.binary op, location, left, right, others⟩

/-- What a slot of statements in a row holds. -/
def slot : Option Tree → Emit Unit
  | none => pure ()
  | some t => statement t

/-- Statements one after the other, up to the first that fails. -/
def statements : List Tree → Emit Unit
  | [] => pure ()
  | t :: ts => do
    statement t
    statements ts

/-- The block of the `else` that comes first. -/
def alternative : List Tree → Emit Unit
  | ⟨.elseBranch, _, _, some body, _⟩ :: _ => statement body
  | _ => pure ()

/-- The arms of a switch on `value`; returns the label behind it, if it has been drawn. -/
def arms (value : Operand) (done : Option Label) : List Tree → Emit (Option Label)
  | [] => pure done
  | ⟨.caseArm, location, left, right, _⟩ :: others =>
    match left, right with
    | none, _ => missing .caseArm location .constant
    | some _, none => missing .caseArm location .body
    | some constant, some body => do
      let constant ← expression constant
      let test ← newTemporary
      emit (.binary .eq value constant test)
      let next ← newLabel
      emit (.ifFalse (.temporary test) next)
      statement body
      let out ← behind done
      emit (.goto out)
      emit (.label next)
      arms value (some out) others
  | ⟨.defaultArm, location, _, right, _⟩ :: others =>
    match right with
    | none => missing .defaultArm location .body
    | some body => do
      statement body
      let out ← behind done
      emit (.goto out)
      arms value (some out) others
  | other :: _ => misplaced other.kind other.location .switchArm

end

end Quadrupler.Lowering
