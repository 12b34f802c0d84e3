import Quadrupler.Proofs.Syntax.Program
import Quadrupler.Proofs.Token.Join
set_option autoImplicit false

/-!
# Programs have no faults

No rule of the grammar mentions a fault, so a text that is read as a program has been cut
into tokens without one.
-/

namespace Quadrupler

namespace Token

theorem faultless_nil : Faultless [] := nofun

theorem faultless_append {tokens others : List Token} :
    Faultless (tokens ++ others) ↔ Faultless tokens ∧ Faultless others :=
  List.forall_mem_append

theorem ne_fault_of_is {token : Token} {kind : TokenKind} {text : String}
    (h : token.is kind text = true) (differs : kind ≠ .fault) : token.kind ≠ .fault := by
  rw [(is_iff.mp h).1]
  exact differs

theorem delimiter_ne_fault {token : Token} {text : String} (h : token.is .delimiter text = true) :
    token.kind ≠ .fault :=
  ne_fault_of_is h nofun

theorem keyword_ne_fault {token : Token} {text : String} (h : token.is .keyword text = true) :
    token.kind ≠ .fault :=
  ne_fault_of_is h nofun

/-- A word or a sign, what follows it, and another one. -/
theorem faultless_enclosed {left right : Token} {tokens : List Token} (hleft : left.kind ≠ .fault)
    (hright : right.kind ≠ .fault) (h : Faultless tokens) :
    Faultless (left :: tokens ++ [right]) :=
  faultless_append.mpr
    ⟨faultless_cons.mpr ⟨hleft, h⟩, faultless_cons.mpr ⟨hright, faultless_nil⟩⟩

end Token

namespace Syntax

open Grammar Token

mutual

theorem faultless_of_operand : ∀ {tokens : List Token} {t : Tree} {levels : Nat},
    Grammar.Operand tokens t levels → Faultless tokens
  | _, _, _, .number h => faultless_cons.mpr ⟨by simp [h], faultless_nil⟩
  | _, _, _, .identifier h => faultless_cons.mpr ⟨by simp [h], faultless_nil⟩
  | _, _, _, .enclosed hleft hright h =>
    faultless_enclosed (delimiter_ne_fault hleft) (delimiter_ne_fault hright)
      (faultless_of_level h)

theorem faultless_of_level : ∀ {n : Nat} {tokens : List Token} {t : Tree} {levels : Nat},
    Level n tokens t levels → Faultless tokens
  | _, _, _, _, .operand h => faultless_of_operand h
  | _, _, _, _, .chain h => faultless_of_chain h

theorem faultless_of_chain : ∀ {n k : Nat} {tokens : List Token} {t : Tree} {levels : Nat},
    Chain n k tokens t levels → Faultless tokens
  | _, _, _, _, _, .single h => faultless_of_level h
  | _, _, _, _, _, .more left hkind _ right =>
    faultless_append.mpr
      ⟨faultless_of_chain left, faultless_cons.mpr ⟨by simp [hkind], faultless_of_level right⟩⟩

end

theorem faultless_of_condition {tokens : List Token} {t : Tree} {levels : Nat}
    (h : Condition tokens t levels) : Faultless tokens := by
  cases h with
  | mk hleft hright h =>
    exact faultless_enclosed (delimiter_ne_fault hleft) (delimiter_ne_fault hright)
      (faultless_of_level h)

theorem faultless_of_simple {tokens : List Token} {t : Tree} {levels : Nat}
    (h : Simple tokens t levels) : Faultless tokens := by
  cases h with
  | assign hname hsign h =>
    have sign := ne_fault_of_is hsign nofun
    simp [faultless_cons, hname, sign, faultless_of_level h]
  | step hname hsign =>
    have sign := ne_fault_of_is hsign nofun
    simp [faultless_cons, faultless_nil, hname, sign]
  | expression h => exact faultless_of_level h

mutual

theorem faultless_of_statement : ∀ {tokens : List Token} {t : Tree} {levels : Nat},
    Statement tokens t levels → Faultless tokens
  | _, _, _, .returning hword hsemicolon h =>
    faultless_enclosed (keyword_ne_fault hword) (delimiter_ne_fault hsemicolon)
      (faultless_of_level h)
  | _, _, _, .ifThen hword he hb => by
    simp [faultless_cons, faultless_append, keyword_ne_fault hword, faultless_of_condition he,
      faultless_of_block hb]
  | _, _, _, .ifElse hword hother he hb ha => by
    simp [faultless_cons, faultless_append, keyword_ne_fault hword, keyword_ne_fault hother,
      faultless_of_condition he, faultless_of_block hb, faultless_of_block ha]
  | _, _, _, .whileLoop hword he hb => by
    simp [faultless_cons, faultless_append, keyword_ne_fault hword, faultless_of_condition he,
      faultless_of_block hb]
  | _, _, _, .forLoop hword hleft hone htwo hright hi he ha hb => by
    simp [faultless_cons, faultless_append, keyword_ne_fault hword, delimiter_ne_fault hleft,
      delimiter_ne_fault hone, delimiter_ne_fault htwo, delimiter_ne_fault hright,
      faultless_of_simple hi, faultless_of_level he, faultless_of_simple ha, faultless_of_block hb]
  | _, _, _, .doLoop hword hagain hsemicolon hb he => by
    simp [faultless_cons, faultless_append, faultless_nil, keyword_ne_fault hword,
      keyword_ne_fault hagain, delimiter_ne_fault hsemicolon, faultless_of_block hb,
      faultless_of_condition he]
  | _, _, _, .switch hword hleft hright he harms => by
    simp [faultless_cons, faultless_append, faultless_nil, keyword_ne_fault hword,
      delimiter_ne_fault hleft, delimiter_ne_fault hright, faultless_of_condition he,
      faultless_of_arms harms]
  | _, _, _, .block hb => faultless_of_block hb
  | _, _, _, .empty hsemicolon =>
    faultless_cons.mpr ⟨delimiter_ne_fault hsemicolon, faultless_nil⟩
  | _, _, _, .simple hsemicolon h =>
    faultless_append.mpr
      ⟨faultless_of_simple h, faultless_cons.mpr ⟨delimiter_ne_fault hsemicolon, faultless_nil⟩⟩

theorem faultless_of_block : ∀ {tokens : List Token} {t : Tree} {levels : Nat},
    Block tokens t levels → Faultless tokens
  | _, _, _, .mk hleft hright h =>
    faultless_enclosed (delimiter_ne_fault hleft) (delimiter_ne_fault hright)
      (faultless_of_statements h)

theorem faultless_of_statements : ∀ {tokens : List Token} {ts : List Tree} {levels : Nat},
    Statements tokens ts levels → Faultless tokens
  | _, _, _, .nil => faultless_nil
  | _, _, _, .cons first others =>
    faultless_append.mpr ⟨faultless_of_statement first, faultless_of_statements others⟩

theorem faultless_of_arms : ∀ {tokens : List Token} {ts : List Tree} {levels : Nat},
    Arms tokens ts levels → Faultless tokens
  | _, _, _, .nil => faultless_nil
  | _, _, _, .caseArm hword hcolon he body others => by
    simp [faultless_cons, faultless_append, keyword_ne_fault hword, delimiter_ne_fault hcolon,
      faultless_of_level he, faultless_of_statements body, faultless_of_arms others]
  | _, _, _, .defaultArm hword hcolon body others => by
    simp [faultless_cons, faultless_append, keyword_ne_fault hword, delimiter_ne_fault hcolon,
      faultless_of_statements body, faultless_of_arms others]

end

end Syntax

/-- What is read has no faults, comments counted in. -/
theorem faultless_of_parseTokens {tokens : List Token} {t : Tree} (h : parseTokens tokens = .ok t) :
    Token.Faultless tokens := by
  obtain ⟨levels, -, ⟨derived⟩⟩ := exists_program_of_parseTokens h
  intro token member fault
  have listed : token ∈ Token.significant tokens :=
    List.mem_filter.mpr ⟨member, by simp [fault]⟩
  exact Syntax.faultless_of_statements derived token listed fault

end Quadrupler
