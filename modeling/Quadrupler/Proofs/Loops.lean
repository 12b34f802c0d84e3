import Quadrupler.Proofs.Join
import Quadrupler.Proofs.Lowering.Loops
import Quadrupler.Proofs.Lowering.Total
import Quadrupler.Proofs.Syntax.Price
set_option autoImplicit false

/-!
# The words that make code jump back

The loops of a tree can be seen from the tokens it was read from: each of them has one `for` or one
`while`, and these words stand nowhere else.  So they are as many as the jumps that go back in the
code of a text, and a text without them has code that always halts.
-/

namespace Quadrupler

namespace Token

/-- One of the two words of which each loop has one. -/
def isLoopWord (token : Token) : Bool := token.is .keyword "while" || token.is .keyword "for"

theorem isLoopWord_of_is {token : Token} {kind : TokenKind} {text : String}
    (h : token.is kind text = true) :
    token.isLoopWord = isLoopWord ⟨kind, text, .start⟩ := by
  obtain ⟨rfl, rfl⟩ := is_iff.mp h
  rfl

theorem isLoopWord_of_kind {token : Token} (h : token.kind ≠ .keyword) :
    token.isLoopWord = false := by
  simp [isLoopWord, is, h]

/-- What a token writes of loops. -/
def loop (token : Token) : Nat := if token.isLoopWord then 1 else 0

theorem loop_of_is {token : Token} {kind : TokenKind} {text : String}
    (h : token.is kind text = true) : token.loop = loop ⟨kind, text, .start⟩ := by
  rw [loop, isLoopWord_of_is h, loop]

theorem loop_of_kind {token : Token} (h : token.kind ≠ .keyword) : token.loop = 0 := by
  rw [loop, isLoopWord_of_kind h]
  rfl

theorem total_loop (tokens : List Token) :
    total loop tokens =
      tokens.countP (·.is .keyword "while") + tokens.countP (·.is .keyword "for") := by
  induction tokens with
  | nil => rfl
  | cons token tokens ih =>
    have here : token.loop = (if token.is .keyword "while" = true then 1 else 0) +
        if token.is .keyword "for" = true then 1 else 0 := by
      unfold loop isLoopWord
      by_cases word : token.is .keyword "while" = true
      · have other : token.is .keyword "for" = false := by
          simp [is, (is_iff.mp word).2]
        simp [word, other]
      · simp [word]
    rw [total_cons, List.countP_cons, List.countP_cons, ih, here]
    omega

end Token

namespace Syntax

open Token

/-- Every loop has one of the two words; a `do` loop has its word behind the body. -/
theorem pays_loops : Pays Token.loop Tree.Kind.loops where
  number h := loop_of_kind (by simp [h])
  identifier h := loop_of_kind (by simp [h])
  delimiter h := loop_of_kind (by simp [(is_iff.mp h).1])
  leaf := ⟨rfl, rfl⟩
  braces := ⟨rfl, rfl⟩
  binary hkind _ := loop_of_kind (by simp [hkind])
  assign h := loop_of_kind (by simp [(is_iff.mp h).1])
  step h := loop_of_kind (by simp [(is_iff.mp h).1])
  returning := loop_of_is
  ifThen := loop_of_is
  elseBranch := loop_of_is
  whileLoop := loop_of_is
  forLoop := loop_of_is
  doLoop h h' := by
    rw [loop_of_is h, loop_of_is h']
    rfl
  switch := loop_of_is
  caseArm := loop_of_is
  defaultArm := loop_of_is

end Syntax

/-! ## Texts -/

/-- The code of a text jumps back as often as the text writes a loop. -/
theorem directed_of_compile {source : String} {listing : Listing}
    (h : compile source = .ok listing) :
    (∀ l, listing.definitions l ≤ 1) ∧
      listing.Directed 0 listing (Token.total Token.loop (Token.scan source)) := by
  obtain ⟨t, read, lowered⟩ := compile_eq_ok_iff.mp h
  obtain ⟨_, whole⟩ := lower_eq_ok_iff.mp lowered
  have once := Lowering.definitions_le_one whole
  obtain ⟨ts, levels, c, -, derived, emitted⟩ :=
    exists_lower_iff_statements.mp ⟨t, read, lowered⟩
  have row := Lowering.statements_emits ts emitted
  have directed := Lowering.directed_of_emits once row listing.placed_zero trivial
  have comments (token : Token) (comment : token.kind = .comment) : token.loop = 0 :=
    Token.loop_of_kind (by simp [comment])
  rw [Lowering.Piece.loops, Syntax.pays_loops.statements derived,
    Token.total_significant comments] at directed
  exact ⟨once, directed⟩

/-- In the code of a text no label is defined twice, a test that jumps on failure goes ahead, and
one that jumps on success goes back.  As many jumps go back as the text has the words `while` and
`for`; if it has none, the machine halts from all values of names and temporaries. -/
theorem compile_jumps (source : String) (listing : Listing) (h : compile source = .ok listing) :
    let word (text : String) : Nat := (Token.scan source).countP (·.is .keyword text)
    (∀ l, listing.definitions l ≤ 1) ∧
      (∀ i q, listing[i]? = some q → q.operation = .ifFalse →
        ∃ there, listing.landing? q = some there ∧ i < there) ∧
      (∀ i q, listing[i]? = some q → q.operation = .ifTrue →
        ∃ there, listing.landing? q = some there ∧ there < i) ∧
      listing.backJumps = word "while" + word "for" ∧
      (word "while" = 0 → word "for" = 0 →
        ∀ (V : Type) (arithmetic : Arithmetic V) (names : Valuation V)
          (temporaries : Temporary → V), ∃ completion final,
            Machine.Halts arithmetic listing names temporaries completion final) := by
  intro word
  obtain ⟨once, directed⟩ := directed_of_compile h
  rw [Token.total_loop] at directed
  refine ⟨once, ?_, ?_, directed.countP_eq, ?_⟩
  · intro i q at_ test
    obtain ⟨back, heads, -⟩ := directed.exists_heads at_
    rw [Nat.zero_add] at heads
    exact heads.ahead_of_ifFalse test
  · intro i q at_ test
    obtain ⟨back, heads, -⟩ := directed.exists_heads at_
    rw [Nat.zero_add] at heads
    exact heads.back_of_ifTrue test
  · intro noWhile noFor V arithmetic names temporaries
    have none : word "while" + word "for" = 0 := by omega
    have ahead (i : Nat) (q : Quadruple) (at_ : listing[i]? = some q) :
        listing.Heads i q false := by
      obtain ⟨back, heads, stays⟩ := directed.exists_heads at_
      rwa [Nat.zero_add, stays none] at heads
    obtain ⟨fuel, ⟨completion, final⟩, run⟩ :=
      Machine.exists_run_of_heads ahead ⟨0, names, temporaries⟩
    exact ⟨completion, final, fuel, run⟩

/-- A switch in a loop in a loop: its arms jump ahead to one label, and only the loops go back.
The same switch on its own halts. -/
theorem compile_jumps_switch :
    let nested := "do \x7bwhile (i) \x7bswitch (i) \x7bcase 1: return k; default: i = k;" ++
      "\x7d\x7d\x7d while (k);"
    let single := "switch (i) \x7bcase 1: return k; default: i = k;\x7d"
    let listing : Listing :=
      [.label ⟨0⟩, .label ⟨1⟩, .ifFalse (.name "i") ⟨2⟩, .binary .eq (.name "i") (.name "1") ⟨0⟩,
       .ifFalse (.temporary ⟨0⟩) ⟨3⟩, .returning (.name "k"), .goto ⟨4⟩, .label ⟨3⟩,
       .assign (.name "k") "i", .goto ⟨4⟩, .label ⟨4⟩, .goto ⟨1⟩, .label ⟨2⟩,
       .ifTrue (.name "k") ⟨0⟩]
    let straight : Listing :=
      [.binary .eq (.name "i") (.name "1") ⟨0⟩, .ifFalse (.temporary ⟨0⟩) ⟨0⟩,
       .returning (.name "k"), .goto ⟨1⟩, .label ⟨0⟩, .assign (.name "k") "i", .goto ⟨1⟩,
       .label ⟨1⟩]
    compile nested = .ok listing ∧ listing.backJumps = 2 ∧ compile single = .ok straight ∧
      ∀ (V : Type) (arithmetic : Arithmetic V) (names : Valuation V) (temporaries : Temporary → V),
        ∃ completion final,
          Machine.Halts arithmetic straight names temporaries completion final := by
  intro nested single listing straight
  have h : compile nested = .ok listing := by decide +kernel
  have h' : compile single = .ok straight := by decide +kernel
  obtain ⟨-, -, -, count, -⟩ := compile_jumps nested listing h
  obtain ⟨-, -, -, -, halts⟩ := compile_jumps single straight h'
  exact ⟨h, count.trans (by decide +kernel), h', halts (by decide +kernel) (by decide +kernel)⟩

end Quadrupler
