import Quadrupler.Proofs.Cost
import Quadrupler.Proofs.Lowering.Names
import Quadrupler.Proofs.Token.Visible
set_option autoImplicit false

/-!
# Temporaries and variables

A temporary is printed as the letter `t` and its number, and a program may call a variable so.
Nothing else in a listing can be taken for a temporary: numbers begin with a digit, labels with
another letter.  So a listing is ambiguous exactly if the program uses a variable that is called
as one of the temporaries, and these are as many as its operators, steps and cases.
-/

namespace Quadrupler

/-- The leaf of a tree that a token makes. -/
def Token.atom? (token : Token) : Option Tree.Kind :=
  match token.kind with
  | .number => some (.number token.text)
  | .identifier => some (.identifier token.text)
  | _ => none

theorem Token.of_atom?_eq_some {token : Token} {kind : Tree.Kind} (h : token.atom? = some kind) :
    token.kind = .number ∧ kind = .number token.text ∨
      token.kind = .identifier ∧ kind = .identifier token.text := by
  unfold atom? at h
  split at h
  · rename_i number
    cases h
    exact .inl ⟨number, rfl⟩
  · rename_i identifier
    cases h
    exact .inr ⟨identifier, rfl⟩
  · cases h

namespace Syntax

open Grammar Quadrupler.Tree
open Lowering (stepAmount)

variable {tokens : List Token} {kinds : List Kind}

/-- All are leaves that the tokens make, or the amount of a step. -/
def Within (tokens : List Token) (kinds : List Kind) : Prop :=
  ∀ kind ∈ kinds, kind = .number stepAmount ∨ ∃ token ∈ tokens, token.atom? = some kind

namespace Within

variable {others : List Token}

theorem nil (tokens : List Token) : Within tokens [] := List.forall_mem_nil _

theorem append {kinds' : List Kind} (h : Within tokens kinds) (h' : Within tokens kinds') :
    Within tokens (kinds ++ kinds') :=
  List.forall_mem_append.mpr ⟨h, h'⟩

theorem mono (h : Within tokens kinds) (all : tokens ⊆ others) : Within others kinds := by
  intro kind member
  refine (h kind member).imp_right ?_
  rintro ⟨token, there, made⟩
  exact ⟨token, all there, made⟩

theorem cons {token : Token} (h : Within tokens kinds) : Within (token :: tokens) kinds :=
  h.mono (List.subset_cons_self token tokens)

theorem left (h : Within tokens kinds) : Within (tokens ++ others) kinds :=
  h.mono (List.subset_append_left tokens others)

theorem right (h : Within others kinds) : Within (tokens ++ others) kinds :=
  h.mono (List.subset_append_right tokens others)

/-- A leaf that the first token makes. -/
theorem leaf {token : Token} {kind : Kind} (h : token.atom? = some kind) :
    Within (token :: tokens) [kind] :=
  List.forall_mem_singleton.mpr (.inr ⟨token, List.mem_cons_self, h⟩)

theorem identifier {name : Token} (h : name.kind = .identifier) :
    Within (name :: tokens) (slotAtoms true (some (.identifier name.text name.location))) := by
  rw [slotAtoms, Tree.identifier, atoms, if_pos rfl]
  exact .leaf (by simp [Token.atom?, h])

end Within

/-! ## Expressions -/

mutual

theorem within_of_operand : ∀ {tokens : List Token} {t : Tree} {levels : Nat},
    Grammar.Operand tokens t levels → ∀ used, Within tokens (t.atoms used)
  | _, _, _, .number h, used => by
    rw [atoms]
    split
    · exact .leaf (by simp [Token.atom?, h])
    · exact .nil _
  | _, _, _, .identifier h, used => by
    rw [atoms]
    split
    · exact .leaf (by simp [Token.atom?, h])
    · exact .nil _
  | _, _, _, .enclosed _ _ h, used => (within_of_level h used).cons.left

theorem within_of_level : ∀ {n : Nat} {tokens : List Token} {t : Tree} {levels : Nat},
    Level n tokens t levels → ∀ used, Within tokens (t.atoms used)
  | _, _, _, _, .operand h, used => within_of_operand h used
  | _, _, _, _, .chain h, used => within_of_chain h used

theorem within_of_chain : ∀ {n k : Nat} {tokens : List Token} {t : Tree} {levels : Nat},
    Chain n k tokens t levels → ∀ used, Within tokens (t.atoms used)
  | _, _, _, _, _, .single h, used => within_of_level h used
  | _, _, _, _, _, .more left _ _ right, used => by
    rw [atoms, slotAtoms, slotAtoms]
    exact (within_of_chain left true).left.append (within_of_level right true).cons.right

end

theorem within_of_condition {t : Tree} {levels : Nat} (h : Condition tokens t levels)
    (used : Bool) : Within tokens (t.atoms used) := by
  cases h with
  | mk _ _ h => exact (within_of_level h used).cons.left

/-! ## Statements -/

theorem within_of_simple {t : Tree} {levels : Nat} (h : Simple tokens t levels) :
    Within tokens (t.atoms false) := by
  cases h with
  | assign hname _ h =>
    rw [atoms]
    exact (Within.identifier hname).append (within_of_level h true).cons.cons
  | step hname _ =>
    rw [atoms]
    exact List.forall_mem_cons.mpr ⟨.inl rfl, Within.identifier hname⟩
  | expression h => exact within_of_level h false

mutual

theorem within_of_statement : ∀ {tokens : List Token} {t : Tree} {levels : Nat},
    Statement tokens t levels → Within tokens (t.atoms false)
  | _, _, _, .returning _ _ h => by
    rw [atoms, slotAtoms]
    exact (within_of_level h true).cons.left
  | _, _, _, .ifThen _ he hb => by
    rw [atoms, slotAtoms, slotAtoms, allAtoms, List.append_nil]
    exact (within_of_condition he true).cons.left.append (within_of_block hb).right
  | _, _, _, .ifElse _ _ he hb ha => by
    simp only [atoms, slotAtoms, allAtoms, List.append_nil]
    exact ((within_of_condition he true).cons.left.append (within_of_block hb).right).left.append
      (within_of_block ha).cons.right
  | _, _, _, .whileLoop _ he hb => by
    rw [atoms, slotAtoms, slotAtoms]
    exact (within_of_condition he true).cons.left.append (within_of_block hb).right
  | _, _, _, .forLoop _ _ _ _ _ hi he ha hb => by
    simp only [atoms, slotAtoms, allAtoms, List.append_nil]
    refine .append (.append ?test ?body) (.append ?start ?advance)
    case test => exact (within_of_level he true).cons.right.left.left
    case body => exact (within_of_block hb).cons.right
    case start => exact (within_of_simple hi).cons.cons.left.left.left
    case advance => exact (within_of_simple ha).cons.right.left
  | _, _, _, .doLoop _ _ _ hb he => by
    rw [atoms, slotAtoms, slotAtoms]
    exact (within_of_condition he true).cons.right.left.append (within_of_block hb).cons.left.left
  | _, _, _, .switch _ _ _ he harms => by
    rw [atoms, slotAtoms]
    exact (within_of_condition he _).cons.left.left.append (within_of_arms harms).cons.right.left
  | _, _, _, .block hb => within_of_block hb
  | _, _, _, .empty _ => by
    rw [atoms]
    exact .nil _
  | _, _, _, .simple _ h => (within_of_simple h).left

theorem within_of_block : ∀ {tokens : List Token} {t : Tree} {levels : Nat},
    Block tokens t levels → Within tokens (t.atoms false)
  | _, _, _, .mk _ _ h => by
    rw [atoms]
    exact (within_of_statements h).cons.left

theorem within_of_statements : ∀ {tokens : List Token} {ts : List Tree} {levels : Nat},
    Statements tokens ts levels → Within tokens (allAtoms ts)
  | _, _, _, .nil => .nil _
  | _, _, _, .cons first others => by
    rw [allAtoms]
    exact (within_of_statement first).left.append (within_of_statements others).right

theorem within_of_arms : ∀ {tokens : List Token} {ts : List Tree} {levels : Nat},
    Arms tokens ts levels → Within tokens (allAtoms ts)
  | _, _, _, .nil => .nil _
  | _, _, _, .caseArm _ _ he body others => by
    simp only [allAtoms, atoms, slotAtoms]
    exact ((within_of_level he true).cons.left.append
      (within_of_statements body).cons.right).left.append (within_of_arms others).right
  | _, _, _, .defaultArm _ _ body others => by
    simp only [allAtoms, atoms, slotAtoms]
    exact (within_of_statements body).cons.cons.left.append (within_of_arms others).right

end

/-- Statements in a row mention what each of them does. -/
theorem atoms_foldl (t : Tree) (ts : List Tree) :
    (ts.foldl (fun before next => ⟨.separator, next.location, some before, some next, []⟩) t).atoms
      false = t.atoms false ++ allAtoms ts := by
  induction ts generalizing t with
  | nil => simp [allAtoms]
  | cons next ts ih => simp [ih, atoms, slotAtoms, allAtoms]

theorem within_of_program {t : Tree} {levels : Nat} (h : Program tokens t levels) :
    Within tokens (t.atoms false) := by
  obtain ⟨hts⟩ := h
  rename_i ts
  have all := within_of_statements hts
  cases ts with
  | nil =>
    rw [row, Option.getD_none, atoms]
    exact all
  | cons t ts =>
    rw [row, Option.getD_some, atoms_foldl]
    rwa [allAtoms] at all

end Syntax

/-! ## Printed names -/

namespace Temporary

theorem toList_name (u : Temporary) : u.name.toList = 't' :: Nat.toDigits 10 u.index := by
  have letter : (toString "t").toList = ['t'] := by decide
  simp [name, letter]

theorem eq_of_name_eq {u v : Temporary} (h : u.name = v.name) : u = v := by
  have letters := congrArg String.toList h
  rw [toList_name, toList_name] at letters
  have same := congrArg (fun digits => Nat.ofDigitChars 10 digits 0) (List.cons.inj letters).2
  obtain ⟨index⟩ := u
  obtain ⟨index'⟩ := v
  simpa using same

/-- No number is written as a temporary is. -/
theorem name_ne_of_isNumber {text : String} (h : Lexeme.IsNumber text.toList) (u : Temporary) :
    text ≠ u.name := by
  have first : ∃ d, text.toList.head? = some d ∧ d.isDigit = true := by
    rcases h with digits | ⟨whole, part, same, digits, -⟩
    · obtain ⟨d, rest, same⟩ := List.exists_cons_of_ne_nil digits.1
      exact ⟨d, by rw [same]; rfl, digits.2 d (by rw [same]; exact List.mem_cons_self)⟩
    · obtain ⟨d, rest, rfl⟩ := List.exists_cons_of_ne_nil digits.1
      exact ⟨d, by rw [same]; rfl, digits.2 d List.mem_cons_self⟩
  rintro rfl
  obtain ⟨d, head, digit⟩ := first
  rw [toList_name] at head
  cases head
  cases digit

end Temporary

/-- Only a variable is printed as a temporary is. -/
theorem Operand.eq_of_render_eq {x : Operand} {u : Temporary} (h : x.render = u.name) :
    x = .temporary u ∨ x = .name u.name := by
  have letters := congrArg String.toList h
  rw [Temporary.toList_name] at letters
  cases x with
  | absent => cases letters
  | name text => exact .inr (congrArg _ h)
  | temporary v => exact .inl (congrArg _ (Temporary.eq_of_name_eq h))
  | label l =>
    have letter : (toString "L").toList = ['L'] := by decide
    simp [render, Label.name, letter] at letters

theorem Token.isNumber_of_mem {token : Token} {here : Location} {opened cs : List Char}
    (h : token ∈ scanFrom here opened cs) (number : token.kind = .number) :
    Lexeme.IsNumber token.text.toList := by
  obtain ⟨before, c, rest, opened', -, rfl⟩ := exists_first_of_mem h
  have munches := (Lexeme.begins_first c rest).munches
    (ne_of_eq_of_ne number (by decide)) (ne_of_eq_of_ne number (by decide))
  rw [number] at munches
  cases munches with
  | number longest => exact longest.fits

/-! ## Compiled texts -/

theorem Quadruple.temporary_mem_operands {q : Quadruple} {u : Temporary} :
    .temporary u ∈ q.operands ↔ u ∈ q.temporaries := by
  have same (x : Operand) : x.temporary? = some u ↔ .temporary u = x := by
    cases x <;> simp [Operand.temporary?, eq_comm]
  simp [operands, temporaries, reads, writes?, same]

variable {source : String} {q : Listing}

theorem numbered_of_compile (h : compile source = .ok q) : Listing.Numbered .zero q q.names := by
  obtain ⟨ts, levels, c, -, derived, emitted⟩ :=
    exists_lower_iff_statements.mp (compile_eq_ok_iff.mp h)
  have numbered := (Lowering.statements_numbers ts .zero).numbered emitted
  rwa [numbered.names_eq]

/-- The temporaries of the code of a text are those that its tokens pay for. -/
theorem temporary_mem_iff_of_compile (h : compile source = .ok q) (u : Temporary) :
    .temporary u ∈ q.operands ↔ (u.index : Int) < (Token.cost (Token.scan source)).temporaries := by
  have drawn := (numbered_of_compile h).temporary_lt_iff u
  have paid := (takes_of_compile h).temporaries
  simp only [Counters.zero, Nat.not_lt_zero, false_or, List.mem_flatMap,
    ← Quadruple.temporary_mem_operands] at drawn paid
  rw [Listing.operands, List.mem_flatMap, ← drawn]
  omega

/-- What the code of a text mentions is what its tree does, and comes from its tokens. -/
theorem mentions_of_compile (h : compile source = .ok q) :
    ∃ t, parse source = .ok t ∧ Syntax.Within (Token.scan source) (t.atoms false) ∧
      ∀ text, q.Mentions text ↔ Lowering.Writes (t.atoms false) text := by
  obtain ⟨t, read, lowered⟩ := compile_eq_ok_iff.mp h
  obtain ⟨c, emitted⟩ := lower_eq_ok_iff_statement.mp lowered
  obtain ⟨levels, -, derived⟩ := exists_program_of_parseTokens read
  refine ⟨t, read, (Syntax.within_of_program derived).mono ?_, fun text => ?_⟩
  · exact fun token member => (List.mem_filter.mp member).1
  · exact (Lowering.mentions_iff_of_emits (Lowering.statement_emits t emitted)).symm

/-- The names that a tree from the text uses are identifiers of the text. -/
theorem exists_token_of_uses {tokens : List Token} {t : Tree} {name : String}
    (within : Syntax.Within tokens (t.atoms false)) (h : t.Uses name) :
    ∃ token ∈ tokens, token.kind = .identifier ∧ token.text = name := by
  obtain amount | ⟨token, member, made⟩ := within _ h
  · cases amount
  · obtain ⟨-, impossible⟩ | ⟨identifier, same⟩ := Token.of_atom?_eq_some made
    · cases impossible
    · cases same
      exact ⟨token, member, identifier, rfl⟩

/-- What is called as a temporary is no number. -/
theorem mentions_name_iff {t : Tree} (within : Syntax.Within (Token.scan source) (t.atoms false))
    (u : Temporary) : Lowering.Writes (t.atoms false) u.name ↔ t.Uses u.name := by
  constructor
  · intro written
    obtain ⟨kind, member, same⟩ := List.mem_map.mp written
    obtain rfl | ⟨token, there, made⟩ := within kind member
    · have digits : Lexeme.IsDigits Lowering.stepAmount.toList :=
        ⟨by decide, List.all_eq_true.mp rfl⟩
      exact absurd same (Temporary.name_ne_of_isNumber (.inl digits) u)
    · obtain ⟨number, rfl⟩ | ⟨-, rfl⟩ := Token.of_atom?_eq_some made
      · exact absurd same (Temporary.name_ne_of_isNumber (Token.isNumber_of_mem there number) u)
      · exact same ▸ member
  · exact fun uses => List.mem_map.mpr ⟨_, uses, rfl⟩

/-- Temporaries are confused with variables exactly if the program uses a variable that is called as
one of its temporaries.  A temporary is in the code if its number is below what the tokens pay for;
another operand is printed like it, and then is a variable, if the statements of the program read or
assign a variable called so; and what they read or assign are identifiers of the text. -/
theorem compile_temporary_confused_iff (source : String) (q : Listing)
    (h : compile source = .ok q) :
    ∃ t, parse source = .ok t ∧
      (∀ u : Temporary,
        (.temporary u ∈ q.operands ∧ .name u.name ∈ q.operands ↔
          (u.index : Int) < (Token.cost (Token.scan source)).temporaries ∧ t.Uses u.name) ∧
        (.temporary u ∈ q.operands ∧
            (∃ x ∈ q.operands, x ≠ .temporary u ∧ x.render = u.name) ↔
          (u.index : Int) < (Token.cost (Token.scan source)).temporaries ∧ t.Uses u.name)) ∧
      ∀ name, t.Uses name →
        ∃ token ∈ Token.scan source, token.kind = .identifier ∧ token.text = name := by
  obtain ⟨t, read, within, mentioned⟩ := mentions_of_compile h
  have variable_iff (u : Temporary) : .name u.name ∈ q.operands ↔ t.Uses u.name :=
    (mentioned u.name).trans (mentions_name_iff within u)
  have alike (u : Temporary) : (∃ x ∈ q.operands, x ≠ .temporary u ∧ x.render = u.name) ↔
      .name u.name ∈ q.operands := by
    constructor
    · rintro ⟨x, member, other, same⟩
      exact (Operand.eq_of_render_eq same).resolve_left other ▸ member
    · intro member
      exact ⟨_, member, Operand.noConfusion, rfl⟩
  refine ⟨t, read, fun u => ?_, fun name => exists_token_of_uses within⟩
  rw [alike, variable_iff, temporary_mem_iff_of_compile h]
  exact ⟨Iff.rfl, Iff.rfl⟩

/-- The second of two temporaries is called as a variable that is assigned.  The first one is called
as a variable that stands alone, which the code does not mention. -/
theorem compile_temporary_confused_iff_second :
    let source := "t1 = a * b; t0; b++;"
    let q : Listing :=
      [.binary .mul (.name "a") (.name "b") ⟨0⟩, .assign (.temporary ⟨0⟩) "t1",
       .binary .add (.name "b") (.name "1") ⟨1⟩, .assign (.temporary ⟨1⟩) "b"]
    compile source = .ok q ∧ (Token.cost (Token.scan source)).temporaries = 2 ∧
      (.temporary ⟨1⟩ ∈ q.operands ∧ .name "t1" ∈ q.operands) ∧
      ¬(.temporary ⟨0⟩ ∈ q.operands ∧ .name "t0" ∈ q.operands) ∧
      (∃ x ∈ q.operands, x ≠ .temporary ⟨1⟩ ∧ x.render = "t1") ∧
      ∃ token ∈ Token.scan source, token.kind = .identifier ∧ token.text = "t1" := by
  intro source q
  have compiled : compile source = .ok q := by decide +kernel
  have pays : (Token.cost (Token.scan source)).temporaries = 2 := by decide +kernel
  let name (text : String) (column : Nat) : Tree := .identifier text ⟨1, column⟩
  let first : Tree := { kind := .assign, location := ⟨1, 1⟩, left := some (name "t1" 1),
                        right := some (.binary .mul (name "a" 6) (name "b" 10) ⟨1, 8⟩) }
  let last : Tree := { kind := .step .increment, location := ⟨1, 17⟩, left := some (name "b" 17) }
  let row (before next : Tree) : Tree :=
    ⟨.separator, next.location, some before, some next, []⟩
  have read : parse source = .ok (row (row first (name "t0" 13)) last) := by decide +kernel
  obtain ⟨t, read', confused, identifiers⟩ := compile_temporary_confused_iff source q compiled
  obtain rfl : row (row first (name "t0" 13)) last = t := Except.ok.inj (read.symm.trans read')
  have uses : (row (row first (name "t0" 13)) last).Uses "t1" := by decide +kernel
  have unused : ¬(row (row first (name "t0" 13)) last).Uses "t0" := by decide +kernel
  have below : ((1 : Nat) : Int) < (Token.cost (Token.scan source)).temporaries := by
    rw [pays]
    decide
  refine ⟨compiled, pays, (confused ⟨1⟩).1.mpr ⟨below, uses⟩, fun both => ?_,
    ((confused ⟨1⟩).2.mpr ⟨below, uses⟩).2, identifiers "t1" uses⟩
  exact unused ((confused ⟨0⟩).1.mp both).2

/-- In the code of `t0 = a + b;` a temporary and a variable are printed alike. -/
theorem compile_temporary_confused :
    ∃ (source : String) (q : Listing) (u : Temporary), compile source = .ok q ∧
      .temporary u ∈ q.operands ∧ .name u.name ∈ q.operands :=
  ⟨"t0 = a + b;", [.binary .add (.name "a") (.name "b") ⟨0⟩, .assign (.temporary ⟨0⟩) "t0"], ⟨0⟩,
    by decide +kernel, by decide, by decide⟩

end Quadrupler
