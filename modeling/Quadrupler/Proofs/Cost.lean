import Quadrupler.Proofs.Join
import Quadrupler.Proofs.Lowering.Cost
import Quadrupler.Proofs.Syntax.Price
set_option autoImplicit false

/-!
# The tokens of a program pay for its code

What a tree costs can be seen from the tokens it was read from: every operator and every word that
begins a statement or an arm has its price, and all other tokens are free.  Every `while` pays for
a loop that tests first, also the one that ends a `do` loop; so the price of `do` is negative.
-/

namespace Quadrupler

namespace Token

/-- One of the operators between two operands. -/
def isBinary (token : Token) : Bool :=
  BinaryOp.all.any fun op => token.is .operator op.symbol

/-- What tokens pay for. -/
def cost (tokens : List Token) : Cost :=
  let word (text : String) : Int := tokens.countP (·.is .keyword text)
  let sign (text : String) : Int := tokens.countP (·.is .operator text)
  let binary : Int := tokens.countP isBinary
  let steps : Int := sign "++" + sign "--"
  { quadruples :=
      binary + sign "=" + 2 * steps + word "return" + 4 * word "if" + 4 * word "for" +
        4 * (word "while" - word "do") + 2 * word "do" + word "switch" + 4 * word "case" +
        word "default"
    temporaries := binary + steps + word "case"
    labels :=
      2 * word "if" + 2 * word "for" + 2 * (word "while" - word "do") + word "do" +
        word "switch" + word "case" }

/-- What one token pays for. -/
def price (token : Token) : Cost := cost [token]

theorem cost_append (tokens others : List Token) :
    cost (tokens ++ others) = cost tokens + cost others := by
  apply Cost.ext <;> simp [cost, List.countP_append] <;> omega

theorem cost_eq_total (tokens : List Token) : cost tokens = total price tokens := by
  induction tokens with
  | nil => rfl
  | cons token tokens ih =>
    rw [total_cons, ← ih]
    exact cost_append [token] tokens

/-! ## Prices -/

/-- The price of a token depends on its kind and text. -/
theorem price_of_is {token : Token} {kind : TokenKind} {text : String}
    (h : token.is kind text = true) : token.price = price ⟨kind, text, .start⟩ := by
  obtain ⟨rfl, rfl⟩ := is_iff.mp h
  rfl

/-- Only operators and words cost something. -/
theorem price_of_kind {token : Token} (word : token.kind ≠ .keyword)
    (sign : token.kind ≠ .operator) : token.price = 0 := by
  unfold price
  apply Cost.ext <;> simp [cost, is, isBinary, word, sign]

theorem price_binary {token : Token} {op : BinaryOp} (hkind : token.kind = .operator)
    (hop : BinaryOp.ofSymbol? token.text = some op) : token.price = ⟨1, 1, 0⟩ := by
  have text : op.symbol = token.text := by
    unfold BinaryOp.ofSymbol? at hop
    simpa using List.find?_some hop
  have written : token.is .operator op.symbol = true := is_iff.mpr ⟨hkind, text.symm⟩
  rw [price_of_is written]
  cases op <;> decide

end Token

namespace Syntax

open Token

/-- Every `while` pays for a loop that tests first, so the price of `do` is negative. -/
theorem pays_cost : Pays Token.price Tree.Kind.cost where
  number h := price_of_kind (by simp [h]) (by simp [h])
  identifier h := price_of_kind (by simp [h]) (by simp [h])
  delimiter h := price_of_kind (by simp [(is_iff.mp h).1]) (by simp [(is_iff.mp h).1])
  leaf := ⟨rfl, rfl⟩
  braces := ⟨rfl, rfl⟩
  binary hkind hop := price_binary hkind (mem_signs_iff.mp hop).1
  assign h := (price_of_is h).trans (by decide)
  step {_ op} h := (price_of_is h).trans (by cases op <;> decide)
  returning h := (price_of_is h).trans (by decide)
  ifThen h := (price_of_is h).trans (by decide)
  elseBranch h := (price_of_is h).trans (by decide)
  whileLoop h := (price_of_is h).trans (by decide)
  forLoop h := (price_of_is h).trans (by decide)
  doLoop h h' := by
    rw [price_of_is h, price_of_is h']
    decide
  switch h := (price_of_is h).trans (by decide)
  caseArm h := (price_of_is h).trans (by decide)
  defaultArm h := (price_of_is h).trans (by decide)

end Syntax

/-! ## Texts -/

/-- Comments are free. -/
theorem Token.cost_significant (tokens : List Token) :
    Token.cost (Token.significant tokens) = Token.cost tokens := by
  rw [cost_eq_total, cost_eq_total]
  refine total_significant (fun token comment => ?_) tokens
  exact price_of_kind (by simp [comment]) (by simp [comment])

/-- The code of a text takes what the tokens of the text pay for. -/
theorem takes_of_compile {source : String} {listing : Listing} (h : compile source = .ok listing) :
    Lowering.Takes .zero listing listing.names (Token.cost (Token.scan source)) := by
  obtain ⟨t, read, lowered⟩ := compile_eq_ok_iff.mp h
  obtain ⟨ts, levels, c, -, derived, emitted⟩ :=
    exists_lower_iff_statements.mp ⟨t, read, lowered⟩
  have numbered := (Lowering.statements_numbers ts .zero).numbered emitted
  have takes := Lowering.takes_of_emits (Lowering.statements_emits ts emitted)
  rw [Lowering.Piece.cost, Syntax.pays_cost.statements derived, ← Token.cost_eq_total,
    Token.cost_significant] at takes
  rwa [numbered.names_eq]

/-- Every operator and every word of a text has its fixed share in the quadruples, temporaries and
labels of its code, wherever it stands. -/
theorem compile_counts (source : String) (listing : Listing) (h : compile source = .ok listing) :
    let tokens := Token.scan source
    let word (text : String) : Int := tokens.countP (·.is .keyword text)
    let sign (text : String) : Int := tokens.countP (·.is .operator text)
    let binary : Int := tokens.countP Token.isBinary
    let steps : Int := sign "++" + sign "--"
    (listing.length : Int) =
        binary + sign "=" + 2 * steps + word "return" + 4 * word "if" + 4 * word "for" +
          4 * (word "while" - word "do") + 2 * word "do" + word "switch" + 4 * word "case" +
          word "default" ∧
      (listing.names.temporaries : Int) = binary + steps + word "case" ∧
      (listing.names.labels : Int) =
        2 * word "if" + 2 * word "for" + 2 * (word "while" - word "do") + word "do" +
          word "switch" + word "case" := by
  obtain ⟨quadruples, temporaries, labels⟩ := takes_of_compile h
  exact ⟨quadruples, temporaries.trans (zero_add _), labels.trans (zero_add _)⟩

/-- A switch in a loop that tests behind its body: the `while` takes no share of its own. -/
theorem compile_counts_arms :
    let source := "do \x7bswitch (a) \x7bcase 1: a--; default: a = b * 2;\x7d\x7d while (a < n);"
    let listing : Listing :=
      [.label ⟨0⟩, .binary .eq (.name "a") (.name "1") ⟨0⟩, .ifFalse (.temporary ⟨0⟩) ⟨1⟩,
       .binary .sub (.name "a") (.name "1") ⟨1⟩, .assign (.temporary ⟨1⟩) "a", .goto ⟨2⟩,
       .label ⟨1⟩, .binary .mul (.name "b") (.name "2") ⟨2⟩, .assign (.temporary ⟨2⟩) "a",
       .goto ⟨2⟩, .label ⟨2⟩, .binary .lt (.name "a") (.name "n") ⟨3⟩,
       .ifTrue (.temporary ⟨3⟩) ⟨0⟩]
    compile source = .ok listing ∧ Token.cost (Token.scan source) = ⟨13, 4, 3⟩ ∧
      (listing.length : Int) = 13 ∧ (listing.names.temporaries : Int) = 4 ∧
      (listing.names.labels : Int) = 3 := by
  intro source listing
  have h : compile source = .ok listing := by decide +kernel
  have pays : Token.cost (Token.scan source) = ⟨13, 4, 3⟩ := by decide +kernel
  obtain ⟨quadruples, temporaries, labels⟩ := compile_counts source listing h
  exact ⟨h, pays, quadruples.trans (congrArg Cost.quadruples pays),
    temporaries.trans (congrArg Cost.temporaries pays), labels.trans (congrArg Cost.labels pays)⟩

end Quadrupler
