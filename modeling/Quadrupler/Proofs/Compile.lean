import Quadrupler.CommandLine.Basic
import Quadrupler.Proofs.Lowering.Meaning
import Quadrupler.Proofs.Lowering.Total
import Quadrupler.Proofs.Syntax.Shape
set_option autoImplicit false

/-!
# Compilation

What is read can be lowered, before and after simplification, and the listing does what the
tree says.
-/

namespace Quadrupler

/-! ## Lowering never fails -/

theorem exists_lower_of_parseTokens {tokens : List Token} {t : Tree}
    (h : parseTokens tokens = .ok t) :
    (∃ listing, lower t = .ok listing) ∧ ∃ listing, lower t.simplify = .ok listing :=
  ⟨exists_lower_of_shaped (shaped_of_parseTokens h),
    exists_lower_of_shaped (shaped_of_parseTokens h).simplify⟩

/-- What can be read can be compiled. -/
theorem exists_compile_of_parse {source : String} {raw : Tree} (h : parse source = .ok raw) :
    ∃ listing, lower raw.simplify = .ok listing ∧ compile source = .ok listing := by
  obtain ⟨-, listing, lowered⟩ := exists_lower_of_parseTokens h
  refine ⟨listing, lowered, ?_⟩
  have rest : compile source = (lower raw.simplify).mapError .lowering := by
    rw [compile, h]
    rfl
  rw [rest, lowered]
  rfl

theorem compile_eq_error_of_parse {source : String} {e : SyntaxError}
    (h : parse source = .error e) : compile source = .error (.reading e) := by
  rw [compile, h]
  rfl

theorem compile_ne_lowering (source : String) (e : LoweringError) :
    compile source ≠ .error (.lowering e) := by
  intro failed
  cases h : parse source with
  | error e' =>
    rw [compile_eq_error_of_parse h] at failed
    cases failed
  | ok raw =>
    obtain ⟨listing, -, compiled⟩ := exists_compile_of_parse h
    rw [compiled] at failed
    cases failed

theorem lower_eq_ok_generator {t : Tree} {listing : Listing} (h : lower t = .ok listing) :
    ∃ generator, Generator.empty.lower t = (.ok (), generator) := by
  rw [lower] at h
  split at h
  · rename_i generator lowered
    exact ⟨generator, lowered⟩
  · cases h

theorem CompileError.message_lowering (e : LoweringError) :
    (CompileError.lowering e).message = toString "Lowering error: " ++ toString e.message :=
  rfl

namespace CommandLine

/-- What is printed before the lowering of a tree. -/
def parsed (path : String) (t : Tree) : String :=
  s!"Parsing {path}...\n" ++ s!"Parsed successfully. Simplified tree has {t.size} nodes.\n"

theorem generated_ne_lowering (rest rest' : String) :
    toString "Generated " ++ rest ≠ toString "Lowering error: " ++ rest' := by
  intro same
  have letters := congrArg (fun text => text.toList.head?) same
  simp only [String.toList_append, List.head?_append] at letters
  have left : (toString "Generated ").toList.head? = some 'G' := by decide
  have right : (toString "Lowering error: ").toList.head? = some 'L' := by decide
  rw [left, right] at letters
  cases letters

theorem process_ne_lowering {path source : String} {list : Bool} {raw : Tree}
    (h : parse source = .ok raw) (e : LoweringError) :
    process path source list ≠
      .exit { status := 1,
              errors := parsed path raw.simplify ++
                (CompileError.lowering e).message ++ "\n" } := by
  obtain ⟨listing, lowered, -⟩ := exists_compile_of_parse h
  obtain ⟨generator, generated⟩ := lower_eq_ok_generator lowered
  rw [process, h]
  simp only [generated]
  split
  · intro same
    injection same with same
    injection same with _ _ texts
    rw [CompileError.message_lowering] at texts
    simp only [parsed, String.append_assoc] at texts
    -- The six parts of what has been printed before are the same.
    iterate 6 replace texts := (String.append_right_inj _).mp texts
    exact generated_ne_lowering _ _ texts
  · split
    · nofun
    · nofun

end CommandLine

/-- Whatever is read can be lowered, as it is and simplified, so neither compilation nor the
command line ever reports that lowering has failed. -/
theorem lowering_never_fails :
    (∀ (tokens : List Token) (t : Tree), parseTokens tokens = .ok t →
      (∃ listing, lower t = .ok listing) ∧ ∃ listing, lower t.simplify = .ok listing) ∧
    (∀ (source : String) (e : LoweringError), compile source ≠ .error (.lowering e)) ∧
    ∀ (path source : String) (list : Bool) (raw : Tree), parse source = .ok raw →
      ∀ e : LoweringError, CommandLine.process path source list ≠
        .exit { status := 1,
                errors := CommandLine.parsed path raw.simplify ++
                  (CompileError.lowering e).message ++ "\n" } := by
  refine ⟨?_, compile_ne_lowering, ?_⟩
  · intro tokens t h
    exact exists_lower_of_parseTokens h
  · intro path source list raw h e
    exact CommandLine.process_ne_lowering h e

/-- The body of a loop stays when nothing is left in it. -/
theorem lowering_never_fails_doLoop :
    let tokens : List Token :=
      [⟨.keyword, "do", ⟨1, 1⟩⟩, ⟨.delimiter, "\x7b", ⟨1, 4⟩⟩, ⟨.delimiter, ";", ⟨1, 5⟩⟩,
       ⟨.delimiter, "\x7d", ⟨1, 6⟩⟩, ⟨.keyword, "while", ⟨1, 8⟩⟩, ⟨.delimiter, "(", ⟨1, 14⟩⟩,
       ⟨.identifier, "x", ⟨1, 15⟩⟩, ⟨.delimiter, ")", ⟨1, 16⟩⟩, ⟨.delimiter, ";", ⟨1, 17⟩⟩]
    ∃ t, parseTokens tokens = .ok t ∧
      (∃ listing, lower t = .ok listing) ∧ ∃ listing, lower t.simplify = .ok listing := by
  intro tokens
  have read : parseTokens tokens = .ok _ := (parseTokens_eq_settle tokens).trans rfl
  exact ⟨_, read, lowering_never_fails.1 _ _ read⟩

/-! ## Meaning -/

/-- A program does what its listing does: it ends, with some values of names and in some way,
if and only if the machine halts so.  Whatever is read has a listing. -/
theorem executes_iff_halts :
    (∀ (t : Tree) (listing : Listing), lower t = .ok listing →
      ∀ (V : Type) (arithmetic : Arithmetic V) (names final : Valuation V)
        (temporaries : Temporary → V) (completion : Completion V),
        t.Executes arithmetic names final completion ↔
          Machine.Halts arithmetic listing names temporaries completion final) ∧
    ∀ (source : String) (raw : Tree), parse source = .ok raw →
      ∃ listing, lower raw.simplify = .ok listing ∧ compile source = .ok listing ∧
        ∀ (V : Type) (arithmetic : Arithmetic V) (names final : Valuation V)
          (temporaries : Temporary → V) (completion : Completion V),
          raw.simplify.Executes arithmetic names final completion ↔
            Machine.Halts arithmetic listing names temporaries completion final := by
  have general (t : Tree) (listing : Listing) (h : lower t = .ok listing) (V : Type)
      (arithmetic : Arithmetic V) (names final : Valuation V) (temporaries : Temporary → V)
      (completion : Completion V) : t.Executes arithmetic names final completion ↔
        Machine.Halts arithmetic listing names temporaries completion final :=
    ((realizes_of_lower h).halts_iff names final temporaries completion).symm
  refine ⟨general, fun source raw h => ?_⟩
  obtain ⟨listing, lowered, compiled⟩ := exists_compile_of_parse h
  exact ⟨listing, lowered, compiled, general raw.simplify listing lowered⟩

/-- A variable is counted up from one and then down to zero, with numbers that mean themselves. -/
theorem executes_iff_halts_whileLoop :
    let x : Tree := .identifier "x" ⟨1, 1⟩
    let t : Tree :=
      { kind := .separator, location := ⟨2, 1⟩,
        left := some { kind := .step .increment, location := ⟨1, 1⟩, left := some x },
        right := some
          { kind := .whileLoop, location := ⟨2, 1⟩,
            left := some (.binary .gt x (.number "0" ⟨2, 12⟩) ⟨2, 10⟩),
            right := some { kind := .step .decrement, location := ⟨2, 15⟩, left := some x } } }
    let arithmetic : Arithmetic Int :=
      ⟨fun op v w => if op = .add then v + w else if op = .sub then v - w else
        if v > w then 1 else 0, fun v => v ≠ 0⟩
    let names : Valuation Int := fun text => if text = "x" ∨ text = "1" then 1 else 0
    (∃ listing, lower t = .ok listing) ∧
      t.Executes arithmetic names (((names.set "x" 2).set "x" 1).set "x" 0) .finished := by
  refine ⟨⟨_, rfl⟩, ?_⟩
  exact (executes_iff_halts.1 _ _ rfl Int _ _ _ (fun _ => 0) _).mpr ⟨20, rfl⟩

end Quadrupler
