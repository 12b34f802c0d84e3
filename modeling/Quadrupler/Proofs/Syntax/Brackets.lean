import Quadrupler.Proofs.Syntax.Faultless
import Quadrupler.Proofs.Token.Brackets
set_option autoImplicit false

/-!
# Brackets of a program

Cutting a text into tokens finds brackets that are closed without being open; that every bracket
is closed is seen only when the tokens are read.  Each rule of the grammar holds its brackets in
pairs, so what is read as a program is nested to its end.
-/

namespace Quadrupler

namespace Token

theorem bracket?_of_is {token : Token} {kind : TokenKind} {text : String}
    (h : token.is kind text = true) : token.bracket? = bracket? ⟨kind, text, .start⟩ := by
  obtain ⟨rfl, rfl⟩ := is_iff.mp h
  rfl

theorem bracket?_keyword {token : Token} {text : String} (h : token.is .keyword text = true) :
    token.bracket? = none :=
  bracket?_of_is h

theorem bracket?_semicolon {token : Token} (h : token.is .delimiter ";" = true) :
    token.bracket? = none :=
  (bracket?_of_is h).trans (by decide)

theorem bracket?_colon {token : Token} (h : token.is .delimiter ":" = true) :
    token.bracket? = none :=
  (bracket?_of_is h).trans (by decide)

end Token

namespace Syntax

open Grammar Token Brackets

variable {tokens : List Token} {left right : Token}

theorem nested_between {c d : Char} (partners : (c, d) ∈ pairs) (opens : left.bracket? = some c)
    (closes : right.bracket? = some d) (h : Nested (brackets tokens)) (rest : List Token)
    (h' : Nested (brackets rest)) : Nested (brackets (left :: tokens ++ right :: rest)) := by
  rw [List.cons_append, brackets_cons_some opens, brackets_append, brackets_cons_some closes]
  exact .pair partners h h'

theorem nested_parentheses (hleft : left.is .delimiter "(" = true)
    (hright : right.is .delimiter ")" = true) (h : Nested (brackets tokens)) (rest : List Token)
    (h' : Nested (brackets rest)) : Nested (brackets (left :: tokens ++ right :: rest)) :=
  nested_between (c := '(') (d := ')') (by decide) ((bracket?_of_is hleft).trans (by decide))
    ((bracket?_of_is hright).trans (by decide)) h rest h'

theorem nested_braces (hleft : left.is .delimiter openBrace = true)
    (hright : right.is .delimiter closeBrace = true) (h : Nested (brackets tokens)) :
    Nested (brackets (left :: tokens ++ [right])) :=
  nested_between (c := '{') (d := '}') (by decide) ((bracket?_of_is hleft).trans (by decide))
    ((bracket?_of_is hright).trans (by decide)) h [] .nil

/-! ## Expressions -/

mutual

theorem nested_of_operand : ∀ {tokens : List Token} {t : Tree} {levels : Nat},
    Grammar.Operand tokens t levels → Nested (brackets tokens)
  | _, _, _, .number h => by
    rw [brackets_cons_none (bracket?_of_kind (by simp [h]))]
    exact .nil
  | _, _, _, .identifier h => by
    rw [brackets_cons_none (bracket?_of_kind (by simp [h]))]
    exact .nil
  | _, _, _, .enclosed hleft hright h => nested_parentheses hleft hright (nested_of_level h) [] .nil

theorem nested_of_level : ∀ {n : Nat} {tokens : List Token} {t : Tree} {levels : Nat},
    Level n tokens t levels → Nested (brackets tokens)
  | _, _, _, _, .operand h => nested_of_operand h
  | _, _, _, _, .chain h => nested_of_chain h

theorem nested_of_chain : ∀ {n k : Nat} {tokens : List Token} {t : Tree} {levels : Nat},
    Chain n k tokens t levels → Nested (brackets tokens)
  | _, _, _, _, _, .single h => nested_of_level h
  | _, _, _, _, _, .more left hkind _ right => by
    rw [brackets_append, brackets_cons_none (bracket?_of_kind (by simp [hkind]))]
    exact (nested_of_chain left).append (nested_of_level right)

end

theorem nested_of_condition {tokens : List Token} {t : Tree} {levels : Nat}
    (h : Condition tokens t levels) : Nested (brackets tokens) := by
  cases h with
  | mk hleft hright h => exact nested_parentheses hleft hright (nested_of_level h) [] .nil

/-! ## Statements -/

theorem nested_of_simple {tokens : List Token} {t : Tree} {levels : Nat}
    (h : Simple tokens t levels) : Nested (brackets tokens) := by
  cases h with
  | assign hname hsign h =>
    rw [brackets_cons_none (bracket?_of_kind (by simp [hname])),
      brackets_cons_none (bracket?_of_is hsign)]
    exact nested_of_level h
  | step hname hsign =>
    rw [brackets_cons_none (bracket?_of_kind (by simp [hname])),
      brackets_cons_none (bracket?_of_is hsign)]
    exact .nil
  | expression h => exact nested_of_level h

mutual

theorem nested_of_statement : ∀ {tokens : List Token} {t : Tree} {levels : Nat},
    Statement tokens t levels → Nested (brackets tokens)
  | _, _, _, .returning hword hsemicolon h => by
    rw [List.cons_append, brackets_cons_none (bracket?_keyword hword), brackets_append,
      brackets_cons_none (bracket?_semicolon hsemicolon)]
    exact (nested_of_level h).append .nil
  | _, _, _, .ifThen hword he hb => by
    rw [List.cons_append, brackets_cons_none (bracket?_keyword hword), brackets_append]
    exact (nested_of_condition he).append (nested_of_block hb)
  | _, _, _, .ifElse hword hother he hb ha => by
    rw [List.cons_append, List.cons_append, brackets_cons_none (bracket?_keyword hword),
      brackets_append, brackets_append, brackets_cons_none (bracket?_keyword hother)]
    exact ((nested_of_condition he).append (nested_of_block hb)).append (nested_of_block ha)
  | _, _, _, .whileLoop hword he hb => by
    rw [List.cons_append, brackets_cons_none (bracket?_keyword hword), brackets_append]
    exact (nested_of_condition he).append (nested_of_block hb)
  | _, _, _, @Statement.forLoop word left one two right first test advance body _ _ _ _ _ _ _ _
      hword hleft hone htwo hright hi he ha hb => by
    have head : Nested (brackets (first ++ one :: test ++ two :: advance)) := by
      rw [brackets_append, brackets_append, brackets_cons_none (bracket?_semicolon hone),
        brackets_cons_none (bracket?_semicolon htwo)]
      exact ((nested_of_simple hi).append (nested_of_level he)).append (nested_of_simple ha)
    have whole := nested_parentheses hleft hright head body (nested_of_block hb)
    rw [← brackets_cons_none (bracket?_keyword hword)] at whole
    simpa using whole
  | _, _, _, .doLoop hword hagain hsemicolon hb he => by
    rw [List.cons_append, List.cons_append, brackets_cons_none (bracket?_keyword hword),
      brackets_append, brackets_append, brackets_cons_none (bracket?_keyword hagain),
      brackets_cons_none (bracket?_semicolon hsemicolon)]
    exact ((nested_of_block hb).append (nested_of_condition he)).append .nil
  | _, _, _, @Statement.switch word left right test body _ _ _ _ hword hleft hright he harms => by
    have arms := nested_braces hleft hright (nested_of_arms harms)
    have whole := (nested_of_condition he).append arms
    rw [← brackets_append, ← brackets_cons_none (bracket?_keyword hword)] at whole
    simpa using whole
  | _, _, _, .block hb => nested_of_block hb
  | _, _, _, .empty hsemicolon => by
    rw [brackets_cons_none (bracket?_semicolon hsemicolon)]
    exact .nil
  | _, _, _, .simple hsemicolon h => by
    rw [brackets_append, brackets_cons_none (bracket?_semicolon hsemicolon)]
    exact (nested_of_simple h).append .nil

theorem nested_of_block : ∀ {tokens : List Token} {t : Tree} {levels : Nat},
    Block tokens t levels → Nested (brackets tokens)
  | _, _, _, .mk hleft hright h => nested_braces hleft hright (nested_of_statements h)

theorem nested_of_statements : ∀ {tokens : List Token} {ts : List Tree} {levels : Nat},
    Statements tokens ts levels → Nested (brackets tokens)
  | _, _, _, .nil => .nil
  | _, _, _, .cons first others => by
    rw [brackets_append]
    exact (nested_of_statement first).append (nested_of_statements others)

theorem nested_of_arms : ∀ {tokens : List Token} {ts : List Tree} {levels : Nat},
    Arms tokens ts levels → Nested (brackets tokens)
  | _, _, _, .nil => .nil
  | _, _, _, .caseArm hword hcolon he body others => by
    rw [List.cons_append, List.cons_append, brackets_cons_none (bracket?_keyword hword),
      brackets_append, brackets_append, brackets_cons_none (bracket?_colon hcolon)]
    exact ((nested_of_level he).append (nested_of_statements body)).append (nested_of_arms others)
  | _, _, _, .defaultArm hword hcolon body others => by
    rw [List.cons_append, List.cons_append, brackets_cons_none (bracket?_keyword hword),
      brackets_cons_none (bracket?_colon hcolon), brackets_append]
    exact (nested_of_statements body).append (nested_of_arms others)

end

end Syntax

/-- Comments hold no brackets that count. -/
theorem Token.brackets_significant (tokens : List Token) :
    brackets (significant tokens) = brackets tokens := by
  unfold brackets significant
  rw [List.filterMap_filter]
  congr 1
  funext token
  by_cases comment : token.kind = .comment
  · simp [comment, bracket?]
  · simp [comment]

theorem nested_of_parseTokens {tokens : List Token} {t : Tree} (h : parseTokens tokens = .ok t) :
    Brackets.Nested (Token.brackets tokens) := by
  obtain ⟨levels, -, ⟨derived⟩⟩ := exists_program_of_parseTokens h
  rw [← Token.brackets_significant]
  exact Syntax.nested_of_statements derived

/-- The brackets among the delimiters of a text can be completed to nested ones.  A closing bracket
at which a token begins is that delimiter, if its partner is the innermost bracket still open of
the delimiters before it, and a fault exactly if it is not.  What is read as a program has no
faults, and its brackets are nested as they are. -/
theorem scan_brackets (source : String) :
    (∃ more, Brackets.Nested (Token.brackets (Token.scan source) ++ more)) ∧
      (∀ before token after, Token.scan source = before ++ token :: after →
        ∀ left right rest, (left, right) ∈ [('(', ')'), ('{', '}'), ('[', ']')] →
          token.StandsBefore source (right :: rest) →
          (token.kind = .fault ∧ token.text = s!"unmatched delimiter '{right}'" ↔
              ¬Brackets.Innermost left (Token.brackets before)) ∧
            (token.kind = .delimiter ∧ token.text = String.singleton right ↔
              Brackets.Innermost left (Token.brackets before))) ∧
      ∀ t, parse source = .ok t →
        (∀ token ∈ Token.scan source, token.kind ≠ .fault) ∧
          Brackets.Nested (Token.brackets (Token.scan source)) := by
  refine ⟨?_, ?_, ?_⟩
  · obtain ⟨opened, leaves⟩ := Token.exists_leaves source
    exact leaves.exists_nested
  · intro before token after split left right rest partners there
    obtain ⟨matched, unmatched⟩ := Token.token_of_closing split partners there
    constructor
    · refine ⟨fun fault innermost => ?_, unmatched⟩
      have kind := (matched innermost).1
      rw [fault.1] at kind
      cases kind
    · refine ⟨fun delimiter => ?_, matched⟩
      by_contra outer
      have kind := (unmatched outer).1
      rw [delimiter.1] at kind
      cases kind
  · intro t read
    exact ⟨faultless_of_parseTokens read, nested_of_parseTokens read⟩

/-- A fault closes nothing and a comment opens nothing: the parenthesis behind the wrong bracket is
matched.  The block of the second text is read, and its brackets are nested. -/
theorem scan_brackets_unmatched :
    let source := "(a]) // ("
    let before : List Token := [⟨.delimiter, "(", ⟨1, 1⟩⟩, ⟨.identifier, "a", ⟨1, 2⟩⟩]
    let wrong : Token := ⟨.fault, "unmatched delimiter ']'", ⟨1, 3⟩⟩
    let right : Token := ⟨.delimiter, ")", ⟨1, 4⟩⟩
    let comment : Token := ⟨.comment, "// (", ⟨1, 6⟩⟩
    let block := "\x7bf = (1);\x7d"
    Token.scan source = before ++ [wrong, right, comment] ∧
      wrong.StandsBefore source "]) // (".toList ∧ right.StandsBefore source ") // (".toList ∧
      (∃ more, Brackets.Nested (Token.brackets (before ++ [wrong, right, comment]) ++ more)) ∧
      ¬Brackets.Innermost '[' (Token.brackets before) ∧
      Brackets.Innermost '(' (Token.brackets (before ++ [wrong])) ∧
      ∃ t, parse block = .ok t ∧ (∀ token ∈ Token.scan block, token.kind ≠ .fault) ∧
        Brackets.Nested (Token.brackets (Token.scan block)) := by
  intro source before wrong right comment block
  have cut : Token.scan source = before ++ [wrong, right, comment] := by decide +kernel
  have there : wrong.StandsBefore source "]) // (".toList := ⟨['(', 'a'], by decide, by decide⟩
  have there' : right.StandsBefore source ") // (".toList := ⟨['(', 'a', ']'], by decide, by decide⟩
  obtain ⟨nested, closing, -⟩ := scan_brackets source
  have fault := (closing before wrong _ cut '[' ']' _ (by decide) there).1.mp ⟨rfl, rfl⟩
  have delimiter := (closing (before ++ [wrong]) right _ cut '(' ')' _ (by decide) there').2.mp
    ⟨rfl, rfl⟩
  rw [cut] at nested
  let tree : Tree :=
    { kind := .assign, location := ⟨1, 2⟩, left := some (.identifier "f" ⟨1, 2⟩),
      right := some (.number "1" ⟨1, 7⟩) }
  have read : parse block = .ok (.block [tree] ⟨1, 1⟩) := by decide +kernel
  exact ⟨cut, there, there', nested, fault, delimiter, _, read, (scan_brackets block).2.2 _ read⟩

end Quadrupler
