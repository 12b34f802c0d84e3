import Quadrupler.Proofs.Syntax.Program
import Quadrupler.Proofs.Syntax.PromptExpression
set_option autoImplicit false

/-!
# Statements get stuck as early as possible

The first token of a statement decides how it goes on.  For each way, the language of what
follows is put together from those of its parts; that all parts can be completed is what
lets a stuck part be completed to a statement.
-/

namespace Quadrupler.Syntax

open Grammar
open scoped Computability

/-! ## How statements go on after their first token -/

section

variable {free : Nat} {block : Step Tree} {arms : Step (List Tree)} {word : Token}

theorem statementWith_returning (h : word.is .keyword "return" = true) (rest : List Token) :
    statementWith free block arms (word :: rest) = (do
      let (value, rest) ← expression free rest
      let rest ← expect free .delimiter ";" rest
      .ok ({ kind := .returning, location := word.location, right := some value }, rest)) := by
  obtain ⟨hkind, htext⟩ := Token.is_iff.mp h
  simp only [statementWith, hkind, htext]

/-- An `else` with its block, if the tokens go on so. -/
def alternativeOf (block : Step Tree) (tree : List Tree → Tree) : Step Tree := fun tokens =>
  match tokens with
  | [] => .ok (tree [], tokens)
  | other :: after =>
    if other.is .keyword "else" then do
      let (body, after) ← block after
      .ok (tree [{ kind := .elseBranch, location := other.location, right := some body }], after)
    else
      .ok (tree [], tokens)

theorem statementWith_ifThen (h : word.is .keyword "if" = true) (rest : List Token) :
    statementWith free block arms (word :: rest) = (do
      let (test, rest) ← condition free rest
      let (body, rest) ← block rest
      alternativeOf block (fun others =>
        { kind := .ifThen, location := word.location, left := some test, right := some body,
          statements := others }) rest) := by
  obtain ⟨hkind, htext⟩ := Token.is_iff.mp h
  simp only [statementWith, hkind, htext]
  rfl

theorem statementWith_whileLoop (h : word.is .keyword "while" = true) (rest : List Token) :
    statementWith free block arms (word :: rest) = (do
      let (test, rest) ← condition free rest
      let (body, rest) ← block rest
      .ok ({ kind := .whileLoop, location := word.location, left := some test,
             right := some body }, rest)) := by
  obtain ⟨hkind, htext⟩ := Token.is_iff.mp h
  simp only [statementWith, hkind, htext]

theorem statementWith_forLoop (h : word.is .keyword "for" = true) (rest : List Token) :
    statementWith free block arms (word :: rest) = (do
      let rest ← expect free .delimiter "(" rest
      let (first, rest) ← simple free rest
      let rest ← expect free .delimiter ";" rest
      let (test, rest) ← expression free rest
      let rest ← expect free .delimiter ";" rest
      let (advance, rest) ← simple free rest
      let rest ← expect free .delimiter ")" rest
      let (body, rest) ← block rest
      .ok ({ kind := .forLoop, location := word.location, left := some test, right := some body,
             statements := [first, advance] }, rest)) := by
  obtain ⟨hkind, htext⟩ := Token.is_iff.mp h
  simp only [statementWith, hkind, htext]

theorem statementWith_doLoop (h : word.is .keyword "do" = true) (rest : List Token) :
    statementWith free block arms (word :: rest) = (do
      let (body, rest) ← block rest
      let rest ← expect free .keyword "while" rest
      let (test, rest) ← condition free rest
      let rest ← expect free .delimiter ";" rest
      .ok ({ kind := .doLoop, location := word.location, left := some test,
             right := some body }, rest)) := by
  obtain ⟨hkind, htext⟩ := Token.is_iff.mp h
  simp only [statementWith, hkind, htext]

theorem statementWith_switch (h : word.is .keyword "switch" = true) (rest : List Token) :
    statementWith free block arms (word :: rest) = (do
      let (discriminant, rest) ← condition free rest
      let (statements, rest) ← arms rest
      .ok ({ kind := .switch, location := word.location, left := some discriminant,
             statements }, rest)) := by
  obtain ⟨hkind, htext⟩ := Token.is_iff.mp h
  simp only [statementWith, hkind, htext]

theorem statementWith_empty (h : word.is .delimiter ";" = true) (rest : List Token) :
    statementWith free block arms (word :: rest) =
      .ok ({ kind := .empty, location := word.location }, rest) := by
  obtain ⟨hkind, htext⟩ := Token.is_iff.mp h
  simp only [statementWith, hkind, htext]

theorem statementWith_block (h : word.is .delimiter openBrace = true) (rest : List Token) :
    statementWith free block arms (word :: rest) = block (word :: rest) := by
  obtain ⟨hkind, htext⟩ := Token.is_iff.mp h
  simp only [statementWith, hkind, htext, openBrace]

theorem statementWith_keyword (hkind : word.kind = .keyword)
    (other : word.text ∉ ["return", "if", "while", "for", "do", "switch"]) (rest : List Token) :
    statementWith free block arms (word :: rest) = .error ⟨.statement, word :: rest, free⟩ := by
  simp only [List.mem_cons, List.not_mem_nil, or_false, not_or] at other
  simp [statementWith, hkind, other]

/-- A simple statement with the semicolon behind it. -/
def simpleStatement (free : Nat) : Step Tree := fun tokens => do
  let (statement, rest) ← simple free tokens
  let rest ← expect free .delimiter ";" rest
  .ok (statement, rest)

theorem statementWith_simple (keyword : word.kind ≠ .keyword)
    (semicolon : ¬word.is .delimiter ";" = true) (brace : ¬word.is .delimiter openBrace = true)
    (rest : List Token) :
    statementWith free block arms (word :: rest) = simpleStatement free (word :: rest) := by
  simp only [Token.is_iff, not_and] at semicolon brace
  rw [statementWith.eq_def]
  simp only
  -- The cases of a keyword, of a semicolon and of a brace are excluded.
  split
  all_goals simp_all [openBrace, simpleStatement]

end

/-! ## What follows the first token of a statement -/

section

variable {word : Token}

theorem returning_words (h : word.is .keyword "return" = true) :
    derived Expression * single .delimiter ";" ≤ (derived Statement).leftQuotient [word] := by
  rintro _ ⟨used, ⟨t, levels, ht⟩, _, ⟨semicolon, hsemicolon, rfl⟩, rfl⟩
  exact mem_leftQuotient (.returning h hsemicolon ht) rfl

theorem ifThen_words (h : word.is .keyword "if" = true) :
    derived Condition * (derived Block * (1 + single .keyword "else" * derived Block)) ≤
      (derived Statement).leftQuotient [word] := by
  rintro _ ⟨test, ⟨e, m, he⟩, _, ⟨body, ⟨b, n, hb⟩, _, rfl | ⟨_, ⟨other, hother, rfl⟩, alternative,
    ⟨a, k, ha⟩, rfl⟩, rfl⟩, rfl⟩
  · exact mem_leftQuotient (.ifThen h he hb) (by simp)
  · exact mem_leftQuotient (.ifElse h hother he hb ha) (by simp)

theorem whileLoop_words (h : word.is .keyword "while" = true) :
    derived Condition * derived Block ≤ (derived Statement).leftQuotient [word] := by
  rintro _ ⟨test, ⟨e, m, he⟩, body, ⟨b, n, hb⟩, rfl⟩
  exact mem_leftQuotient (.whileLoop h he hb) rfl

theorem forLoop_words (h : word.is .keyword "for" = true) :
    single .delimiter "(" * (derived Simple * (single .delimiter ";" * (derived Expression *
      (single .delimiter ";" * (derived Simple * (single .delimiter ")" * derived Block)))))) ≤
      (derived Statement).leftQuotient [word] := by
  rintro _ ⟨_, ⟨left, hleft, rfl⟩, _, ⟨first, ⟨i, j, hi⟩, _, ⟨_, ⟨one, hone, rfl⟩, _,
    ⟨test, ⟨e, k, he⟩, _, ⟨_, ⟨two, htwo, rfl⟩, _, ⟨advance, ⟨a, m, ha⟩, _, ⟨_, ⟨right, hright,
    rfl⟩, body, ⟨b, n, hb⟩, rfl⟩, rfl⟩, rfl⟩, rfl⟩, rfl⟩, rfl⟩, rfl⟩
  exact mem_leftQuotient (.forLoop h hleft hone htwo hright hi he ha hb) (by simp)

theorem doLoop_words (h : word.is .keyword "do" = true) :
    derived Block * (single .keyword "while" * (derived Condition * single .delimiter ";")) ≤
      (derived Statement).leftQuotient [word] := by
  rintro _ ⟨body, ⟨b, m, hb⟩, _, ⟨_, ⟨again, hagain, rfl⟩, _, ⟨test, ⟨e, n, he⟩, _,
    ⟨semicolon, hsemicolon, rfl⟩, rfl⟩, rfl⟩, rfl⟩
  exact mem_leftQuotient (.doLoop h hagain hsemicolon hb he) (by simp)

theorem switch_words (h : word.is .keyword "switch" = true) :
    derived Condition * derived EnclosedArms ≤ (derived Statement).leftQuotient [word] := by
  rintro _ ⟨test, ⟨e, m, he⟩, _, ⟨ts, n, ⟨hleft, hright, harms⟩⟩, rfl⟩
  exact mem_leftQuotient (.switch h hleft hright he harms) (by simp)

theorem simple_words : derived Simple * single .delimiter ";" ≤ derived Statement := by
  rintro _ ⟨used, ⟨t, levels, h⟩, _, ⟨semicolon, hsemicolon, rfl⟩, rfl⟩
  exact mem_derived (.simple hsemicolon h) rfl

theorem block_le_statement : derived Block ≤ derived Statement := by
  rintro used ⟨t, levels, h⟩
  exact ⟨t, levels, .block h⟩

end

/-! ## Statements -/

theorem viable_braces {L : Language Token}
    (h : ∀ left right : Token, left.is .delimiter openBrace = true →
      right.is .delimiter closeBrace = true → [left, right] ∈ L) : Viable L [] := by
  refine ((viable_single .delimiter openBrace).mul (viable_single .delimiter closeBrace)).mono ?_
  rintro _ ⟨_, ⟨left, hleft, rfl⟩, _, ⟨right, hright, rfl⟩, rfl⟩
  exact h left right hleft hright

theorem viable_block : Viable (derived Block) [] :=
  viable_braces fun _ _ hleft hright => mem_derived (.mk hleft hright .nil) rfl

theorem viable_enclosedArms : Viable (derived EnclosedArms) [] :=
  viable_braces fun _ _ hleft hright => mem_derived (.mk hleft hright .nil) rfl

theorem viable_statement : Viable (derived Statement) [] := by
  refine (viable_single .delimiter ";").mono ?_
  rintro _ ⟨semicolon, h, rfl⟩
  exact mem_derived (.empty h) rfl

section

variable {free free' : Nat} (more : free ≤ free') {block block' : Step Tree}
  (blocks : Prompt (derived Block) block block') {arms arms' : Step (List Tree)}
  (switches : Prompt (derived EnclosedArms) arms arms') {word : Token}

include blocks in
theorem alternativeOf_prompt (tree : List Tree → Tree) :
    Prompt (1 + single .keyword "else" * derived Block) (alternativeOf block tree)
      (alternativeOf block' tree) := by
  intro tokens
  cases tokens with
  | nil =>
    exact .done (.inl rfl) (forall_head?_nil rfl)
  | cons other after =>
    by_cases is : other.is .keyword "else" = true
    · refine .after (fun rest => if_pos is) (fun rest => if_pos is) ?_
      refine .mono (.map (blocks after) (fun _ _ => rfl) (fun _ _ => rfl)) ?_
      intro used word
      exact .inr (Language.append_mem_mul ⟨other, is, rfl⟩ word)
    · have unfolded (block : Step Tree) (after : List Token) :
          alternativeOf block tree (other :: after) = .ok (tree [], other :: after) := if_neg is
      rw [unfolded]
      exact .done (.inl rfl) (forall_head?_cons (unfolded block'))

include more blocks in
theorem ifThen_prompt (h : word.is .keyword "if" = true) (rest : List Token) :
    PromptAt (derived Statement) (statementWith free' block' arms') (word :: rest)
      (statementWith free block arms (word :: rest)) := by
  refine .after (statementWith_ifThen h) (statementWith_ifThen h) ?_
  have last : Viable (1 + single .keyword "else" * derived Block) [] := viable_of_mem (.inl rfl)
  refine .mono ?_ (ifThen_words h)
  refine .bind (condition_prompt more rest) (viable_block.mul last) fun test rest _ => ?_
  refine .bind (blocks rest) last fun body rest _ => ?_
  exact alternativeOf_prompt blocks _ rest

include more blocks in
theorem whileLoop_prompt (h : word.is .keyword "while" = true) (rest : List Token) :
    PromptAt (derived Statement) (statementWith free' block' arms') (word :: rest)
      (statementWith free block arms (word :: rest)) := by
  refine .after (statementWith_whileLoop h) (statementWith_whileLoop h) ?_
  refine .mono ?_ (whileLoop_words h)
  refine .bind (condition_prompt more rest) viable_block fun test rest _ => ?_
  exact .map (blocks rest) (fun _ _ => rfl) (fun _ _ => rfl)

include more blocks in
theorem forLoop_prompt (h : word.is .keyword "for" = true) (rest : List Token) :
    PromptAt (derived Statement) (statementWith free' block' arms') (word :: rest)
      (statementWith free block arms (word :: rest)) := by
  refine .after (statementWith_forLoop h) (statementWith_forLoop h) ?_
  have semicolon := viable_single .delimiter ";"
  have body := (viable_single .delimiter ")").mul viable_block
  have advance := viable_simple.mul body
  have test := (viable_level precedenceLevels).mul (semicolon.mul advance)
  refine .mono ?_ (forLoop_words h)
  refine .expect (viable_simple.mul (semicolon.mul test)) fun rest => ?_
  refine .bind (simple_prompt more rest) (semicolon.mul test) fun i rest _ => ?_
  refine .expect test fun rest => ?_
  refine .bind (expression_prompt more rest) (semicolon.mul advance) fun e rest _ => ?_
  refine .expect advance fun rest => ?_
  refine .bind (simple_prompt more rest) body fun a rest _ => ?_
  refine .expect viable_block fun rest => ?_
  exact .map (blocks rest) (fun _ _ => rfl) (fun _ _ => rfl)

include more blocks in
theorem doLoop_prompt (h : word.is .keyword "do" = true) (rest : List Token) :
    PromptAt (derived Statement) (statementWith free' block' arms') (word :: rest)
      (statementWith free block arms (word :: rest)) := by
  refine .after (statementWith_doLoop h) (statementWith_doLoop h) ?_
  have test := viable_condition.mul (viable_single .delimiter ";")
  refine .mono ?_ (doLoop_words h)
  refine .bind (blocks rest) ((viable_single .keyword "while").mul test) fun b rest _ => ?_
  refine .expect test fun rest => ?_
  refine .bind (condition_prompt more rest) (viable_single .delimiter ";") fun e rest _ => ?_
  exact .last _

include more switches in
theorem switch_prompt (h : word.is .keyword "switch" = true) (rest : List Token) :
    PromptAt (derived Statement) (statementWith free' block' arms') (word :: rest)
      (statementWith free block arms (word :: rest)) := by
  refine .after (statementWith_switch h) (statementWith_switch h) ?_
  refine .mono ?_ (switch_words h)
  refine .bind (condition_prompt more rest) viable_enclosedArms fun e rest _ => ?_
  exact .map (switches rest) (fun _ _ => rfl) (fun _ _ => rfl)

include more in
theorem returning_prompt (h : word.is .keyword "return" = true) (rest : List Token) :
    PromptAt (derived Statement) (statementWith free' block' arms') (word :: rest)
      (statementWith free block arms (word :: rest)) := by
  refine .after (statementWith_returning h) (statementWith_returning h) ?_
  refine .mono ?_ (returning_words h)
  refine .bind (expression_prompt more rest) (viable_single .delimiter ";") fun t rest _ => ?_
  exact .last _

include more blocks switches in
theorem keyword_prompt (h : word.kind = .keyword) (rest : List Token) :
    PromptAt (derived Statement) (statementWith free' block' arms') (word :: rest)
      (statementWith free block arms (word :: rest)) := by
  by_cases known : word.text ∈ ["return", "if", "while", "for", "do", "switch"]
  · simp only [List.mem_cons, List.not_mem_nil, or_false] at known
    obtain is | is | is | is | is | is := known
    · exact returning_prompt more (Token.is_iff.mpr ⟨h, is⟩) rest
    · exact ifThen_prompt more blocks (Token.is_iff.mpr ⟨h, is⟩) rest
    · exact whileLoop_prompt more blocks (Token.is_iff.mpr ⟨h, is⟩) rest
    · exact forLoop_prompt more blocks (Token.is_iff.mpr ⟨h, is⟩) rest
    · exact doLoop_prompt more blocks (Token.is_iff.mpr ⟨h, is⟩) rest
    · exact switch_prompt more switches (Token.is_iff.mpr ⟨h, is⟩) rest
  · rw [statementWith_keyword h known]
    exact .here viable_statement
      (forall_head?_cons fun rest => ⟨free', statementWith_keyword h known rest⟩)

include more in
theorem simpleStatement_prompt :
    Prompt (derived Statement) (simpleStatement free) (simpleStatement free') := by
  intro tokens
  refine .mono ?_ simple_words
  refine .bind (simple_prompt more tokens) (viable_single .delimiter ";") fun t rest _ => ?_
  exact .last t

include more blocks switches in
theorem statementWith_prompt : Prompt (derived Statement) (statementWith free block arms)
    (statementWith free' block' arms') := by
  intro tokens
  cases tokens with
  | nil =>
    exact .here viable_statement (forall_head?_nil ⟨free', rfl⟩)
  | cons word rest =>
    by_cases keyword : word.kind = .keyword
    · exact keyword_prompt more blocks switches keyword rest
    by_cases semicolon : word.is .delimiter ";" = true
    · refine .after (statementWith_empty semicolon) (statementWith_empty semicolon)
        (.mono (prompt_ok _ rest) ?_)
      rintro _ rfl
      exact mem_leftQuotient (.empty semicolon) rfl
    by_cases brace : word.is .delimiter openBrace = true
    · rw [statementWith_block brace]
      exact .congr (forall_head?_cons (statementWith_block brace))
        (.mono (blocks (word :: rest)) block_le_statement)
    · rw [statementWith_simple keyword semicolon brace]
      exact .congr (forall_head?_cons (statementWith_simple keyword semicolon brace))
        (simpleStatement_prompt more (word :: rest))

end

/-! ## Arms and blocks -/

theorem looksAhead_closes : LooksAhead closes := looksAhead_begins _ _

theorem looksAhead_closesArm : LooksAhead closesArm :=
  ((looksAhead_begins _ _).or (looksAhead_begins _ _)).or looksAhead_closes

theorem kstar_statement : (derived Statement)∗ ≤ derived Statements := by
  intro used h
  obtain ⟨ts, levels, row⟩ := kstar_derived Statement h
  exact ⟨ts, levels, statements_iff_row.mpr row⟩

theorem kstar_arm : (derived Arm)∗ ≤ derived Arms := by
  intro used h
  obtain ⟨ts, levels, row⟩ := kstar_derived Arm h
  exact ⟨ts, levels, arms_iff_row.mpr row⟩

theorem viable_arm : Viable (derived Arm) [] := by
  refine ((viable_single .keyword "default").mul (viable_single .delimiter ":")).mono ?_
  rintro _ ⟨_, ⟨word, hword, rfl⟩, _, ⟨colon, hcolon, rfl⟩, rfl⟩
  exact mem_derived (.defaultArm hword hcolon .nil) rfl

theorem caseArm_words {word : Token} (h : word.is .keyword "case" = true) :
    derived Expression * (single .delimiter ":" * derived Statements) ≤
      (derived Arm).leftQuotient [word] := by
  rintro _ ⟨test, ⟨e, k, he⟩, _, ⟨_, ⟨colon, hcolon, rfl⟩, used, ⟨ts, m, hts⟩, rfl⟩, rfl⟩
  exact mem_leftQuotient (.caseArm h hcolon he hts) (by simp)

theorem defaultArm_words {word : Token} (h : word.is .keyword "default" = true) :
    single .delimiter ":" * derived Statements ≤ (derived Arm).leftQuotient [word] := by
  rintro _ ⟨_, ⟨colon, hcolon, rfl⟩, used, ⟨ts, m, hts⟩, rfl⟩
  exact mem_leftQuotient (.defaultArm h hcolon hts) rfl

theorem block_words {brace : Token} (h : brace.is .delimiter openBrace = true) :
    derived Statements * single .delimiter closeBrace ≤ (derived Block).leftQuotient [brace] := by
  rintro _ ⟨used, ⟨ts, levels, hts⟩, _, ⟨right, hright, rfl⟩, rfl⟩
  exact mem_leftQuotient (.mk h hright hts) rfl

theorem arms_words {brace : Token} (h : brace.is .delimiter openBrace = true) :
    derived Arms * single .delimiter closeBrace ≤ (derived EnclosedArms).leftQuotient [brace] := by
  rintro _ ⟨used, ⟨ts, levels, hts⟩, _, ⟨right, hright, rfl⟩, rfl⟩
  exact mem_leftQuotient (.mk h hright hts) rfl

section

variable {free : Nat} {step : Step Tree} {word : Token}

theorem arm_case (h : word.is .keyword "case" = true) (rest : List Token) :
    arm free step (word :: rest) = (do
      let (constant, rest) ← expression free rest
      let rest ← expect free .delimiter ":" rest
      let (body, rest) ← readUntil closesArm step rest
      .ok ({ kind := .caseArm, location := word.location, left := some constant,
             right := some (.block body word.location) }, rest)) :=
  if_pos h

theorem arm_default (isNot : ¬word.is .keyword "case" = true)
    (h : word.is .keyword "default" = true) (rest : List Token) :
    arm free step (word :: rest) = (do
      let rest ← expect free .delimiter ":" rest
      let (body, rest) ← readUntil closesArm step rest
      .ok ({ kind := .defaultArm, location := word.location,
             right := some (.block body word.location) }, rest)) :=
  (if_neg isNot).trans (if_pos h)

theorem arm_other (isNot : ¬word.is .keyword "case" = true)
    (isNot' : ¬word.is .keyword "default" = true) (rest : List Token) :
    arm free step (word :: rest) = .error ⟨.arm, word :: rest, free⟩ :=
  (if_neg isNot).trans (if_neg isNot')

end

theorem viable_statements : Viable (derived Statements) [] := ⟨[], [], 0, .nil⟩

section

variable {free free' : Nat} (more : free ≤ free') {step step' : Step Tree}
  (consumes : Consumes step) (consumes' : Consumes step')
  (statements : Prompt (derived Statement) step step')
include more consumes consumes' statements

theorem arm_prompt : Prompt (derived Arm) (arm free step) (arm free' step') := by
  have bodies := (prompt_readUntil looksAhead_closesArm consumes consumes' statements).mono
    kstar_statement
  intro tokens
  cases tokens with
  | nil => exact .here viable_arm (forall_head?_nil ⟨free', rfl⟩)
  | cons word rest =>
    by_cases isCase : word.is .keyword "case" = true
    · refine .after (arm_case isCase) (arm_case isCase) ?_
      have body := (viable_single .delimiter ":").mul viable_statements
      refine .mono ?_ (caseArm_words isCase)
      refine .bind (expression_prompt more rest) body fun e rest _ => ?_
      refine .expect viable_statements fun rest => ?_
      exact .map (bodies rest) (fun _ _ => rfl) (fun _ _ => rfl)
    by_cases isDefault : word.is .keyword "default" = true
    · refine .after (arm_default isCase isDefault) (arm_default isCase isDefault) ?_
      refine .mono ?_ (defaultArm_words isDefault)
      refine .expect viable_statements fun rest => ?_
      exact .map (bodies rest) (fun _ _ => rfl) (fun _ _ => rfl)
    · rw [arm_other isCase isDefault]
      exact .here viable_arm
        (forall_head?_cons fun rest => ⟨free', arm_other isCase isDefault rest⟩)

end

theorem consumes_statement (free : Nat) : Consumes (statement free) :=
  consumes_of_sound (bracesRead free).statement_sound statement_ne_nil

theorem consumes_arm (free : Nat) : Consumes (arm free (statement free)) :=
  consumes_of_sound (arm_sound (bracesRead free).statement_sound) arm_ne_nil

section

variable {free free' : Nat}
  (statements : Prompt (derived Statement) (statement free) (statement free'))
include statements

theorem block_prompt : Prompt (derived Block) (block (free + 1)) (block (free' + 1)) := by
  have row := (prompt_readUntil looksAhead_closes (consumes_statement free)
    (consumes_statement free') statements).mono kstar_statement
  intro tokens
  cases tokens with
  | nil => exact .here viable_block (forall_head?_nil ⟨free', rfl⟩)
  | cons brace rest =>
    by_cases is : brace.is .delimiter openBrace = true
    · refine .after (fun rest => if_pos is) (fun rest => if_pos is) ?_
      refine .mono ?_ (block_words is)
      refine .bind (row rest) (viable_single .delimiter closeBrace) fun ts rest _ => ?_
      exact .last _
    · have unfolded (m : Nat) (rest : List Token) :
          block (m + 1) (brace :: rest) = .error ⟨.exactly openBrace, brace :: rest, m⟩ :=
        if_neg is
      rw [unfolded]
      exact .here viable_block (forall_head?_cons fun rest => ⟨free', unfolded free' rest⟩)

theorem arms_prompt (more : free ≤ free') :
    Prompt (derived EnclosedArms) (arms (free + 1)) (arms (free' + 1)) := by
  have each := arm_prompt more (consumes_statement free) (consumes_statement free') statements
  have row := (prompt_readUntil looksAhead_closes (consumes_arm free) (consumes_arm free')
    each).mono kstar_arm
  have last := viable_single .delimiter closeBrace
  intro tokens
  have words : single .delimiter openBrace * (derived Arms * single .delimiter closeBrace) ≤
      derived EnclosedArms := by
    rintro _ ⟨_, ⟨left, hleft, rfl⟩, _, ⟨used, ⟨ts, levels, hts⟩, _, ⟨right, hright, rfl⟩, rfl⟩,
      rfl⟩
    exact mem_derived (.mk hleft hright hts) rfl
  refine .mono ?_ words
  refine .expect ((viable_kstar.mono kstar_arm).mul last) fun rest => ?_
  refine .bind (row rest) last fun ts rest _ => ?_
  exact .last ts

end

theorem braces_prompt {free free' : Nat} (more : free ≤ free') :
    Prompt (derived Block) (block free) (block free') ∧
      Prompt (derived EnclosedArms) (arms free) (arms free') := by
  induction free generalizing free' with
  | zero =>
    refine ⟨fun tokens => ?_, fun tokens => ?_⟩
    · exact .limit viable_block
    · exact .limit viable_enclosedArms
  | succ free ih =>
    obtain ⟨free', rfl⟩ : ∃ m, free' = m + 1 := ⟨free' - 1, by omega⟩
    have fewer : free ≤ free' := Nat.le_of_succ_le_succ more
    have statements : Prompt (derived Statement) (statement free) (statement free') :=
      statementWith_prompt fewer (ih fewer).1 (ih fewer).2
    exact ⟨block_prompt statements, arms_prompt statements fewer⟩

end Quadrupler.Syntax
