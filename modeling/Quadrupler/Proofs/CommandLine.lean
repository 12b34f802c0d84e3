import Quadrupler.Proofs.Compile
import Quadrupler.Proofs.Lowering.Generator
set_option autoImplicit false

/-!
# The command line agrees with compilation

A run that asks for a listing reads, simplifies, lowers and checks on its own.  It prints what
compilation gives because the check accepts every listing that has been generated, and because
what has been read can always be lowered.
-/

namespace Quadrupler

/-! ## The check of what is lowered -/

theorem check_of_lower {t : Tree} {listing : Listing} (h : lower t = .ok listing) :
    listing.check = .ok () ∧ ∃ c, Generator.empty.lower t = (.ok (), ⟨listing, c⟩) ∧
      listing.names = c := by
  obtain ⟨c, emitted⟩ := lower_eq_ok_iff.mp h
  have computed : Lowering.statement t .zero = ⟨.ok (), listing, c⟩ :=
    Lowering.succeeds_of_emits emitted
  have numbered := (Lowering.statement_numbers t .zero).numbered computed
  refine ⟨?_, c, ?_, numbered.names_eq⟩
  · apply numbered.check_eq_ok
    intro l
    simpa [Lowering.pending, Counters.zero] using (Lowering.definitions_of_emits emitted l).2
  · unfold Generator.lower Generator.run Generator.empty
    rw [computed]
    rfl

namespace CommandLine

/-! ## Arguments -/

theorem readArguments_flags (read : Arguments) (n : Nat) (others : List String) :
    readArguments read (List.replicate n "--list" ++ others) =
      readArguments { read with list := read.list || decide (0 < n) } others := by
  induction n generalizing read with
  | zero => simp
  | succ n ih =>
    rw [List.replicate_succ, List.cons_append, readArguments, if_pos rfl, ih]
    simp

/-- A path and requests for a listing are understood in any order. -/
theorem request_of_perm {arguments : List String} {path : String} {n : Nat}
    (isPath : path ≠ "--list")
    (given : arguments.Perm (path :: List.replicate (n + 1) "--list")) :
    request arguments = .ok (path, true) := by
  obtain ⟨before, after, rfl⟩ : ∃ before after, arguments = before ++ path :: after :=
    List.append_of_mem (given.mem_iff.mpr List.mem_cons_self)
  have flags : (before ++ after).Perm (List.replicate (n + 1) "--list") :=
    (List.perm_middle.symm.trans given).cons_inv
  obtain ⟨total, hbefore, hafter⟩ :=
    List.append_eq_replicate_iff.mp (List.perm_replicate.mp flags)
  have some : (decide (0 < before.length) || decide (0 < after.length)) = true := by
    simp only [Bool.or_eq_true, decide_eq_true_eq]
    omega
  have read : readArguments {} (before ++ path :: after) = .ok ⟨path, true⟩ := by
    rw [hbefore, readArguments_flags, readArguments, if_neg isPath]
    rw [← List.append_nil after, hafter, readArguments_flags, readArguments]
    simpa using some
  rw [request, read]
  rfl

theorem text_of_toUTF8 (source : String) : text (.file source.toUTF8) = .ok source := by
  have decoded : String.fromUTF8? source.toUTF8 = some source := by
    unfold String.fromUTF8?
    rw [String.toUTF8_eq_toByteArray, dif_pos source.isValidUTF8]
    rfl
  rw [text, decoded]

/-- The run on a text that the path names. -/
theorem run_eq_process {program path source : String} {arguments : List String} {n : Nat}
    {look : String → Entry} (isPath : path ≠ "--list")
    (given : arguments.Perm (path :: List.replicate (n + 1) "--list"))
    (held : look path = .file source.toUTF8) :
    run program arguments look = process path source true := by
  rw [run, request_of_perm isPath given]
  show openEntry program path true (look path) = _
  rw [held, openEntry, text_of_toUTF8]
  intro absent
  cases absent

/-! ## The run on a text -/

/-- What is printed before a listing. -/
def generated (path : String) (t : Tree) (listing : Listing) : String :=
  parsed path t ++ s!"Generated {listing.length} quadruples " ++
    s!"({listing.names.temporaries} temporaries, {listing.names.labels} labels).\n"

theorem process_of_error {path source : String} {e : SyntaxError} (h : parse source = .error e)
    (list : Bool) :
    process path source list =
      .exit { status := 1, errors := s!"Parsing {path}...\n" ++ e.message ++ "\n" } := by
  rw [process, h]

theorem process_of_lower {path source : String} {raw : Tree} {listing : Listing}
    (h : parse source = .ok raw) (lowered : lower raw.simplify = .ok listing) :
    process path source true =
      .exit { status := 0, output := listing.render ++ "\n",
              errors := generated path raw.simplify listing } := by
  obtain ⟨passes, c, made, names⟩ := check_of_lower lowered
  rw [process, h]
  simp only [made, passes, generated, names]
  rfl

/-- Given a path and at least one request for a listing, where the path names a file with this
text: if the text can be compiled, the run prints the listing and succeeds; if it cannot, the run
prints no output, reports the error last and fails.  A listing that has been generated never fails
its check. -/
theorem run_prints_compiled (program path source : String) (arguments : List String) (n : Nat)
    (look : String → Entry) (isPath : path ≠ "--list")
    (given : arguments.Perm (path :: List.replicate (n + 1) "--list"))
    (held : look path = .file source.toUTF8) :
    (∀ listing, compile source = .ok listing → ∃ raw, parse source = .ok raw ∧
      run program arguments look =
        .exit { status := 0, output := listing.render ++ "\n",
                errors := generated path raw.simplify listing }) ∧
    (∀ e, compile source = .error e →
      run program arguments look =
        .exit { status := 1, output := "",
                errors := s!"Parsing {path}...\n" ++ e.message ++ "\n" }) ∧
    ∀ raw generator, parse source = .ok raw →
      Generator.empty.lower raw.simplify = (.ok (), generator) →
      generator.listing.check = .ok () := by
  rw [run_eq_process isPath given held]
  cases h : parse source with
  | error e =>
    rw [compile_eq_error_of_parse h, process_of_error h]
    refine ⟨by simp, ?_, by simp⟩
    rintro _ ⟨⟩
    rfl
  | ok raw =>
    obtain ⟨listing, lowered, compiled⟩ := exists_compile_of_parse h
    rw [compiled, process_of_lower h lowered]
    refine ⟨?_, by simp, ?_⟩
    · rintro _ ⟨⟩
      exact ⟨raw, rfl, rfl⟩
    · rintro _ generator ⟨⟩ made
      obtain ⟨passes, c, same, -⟩ := check_of_lower lowered
      rw [same] at made
      cases made
      exact passes

/-- Two requests around the path of a program, and one before that of a text that is none. -/
theorem run_prints_compiled_files :
    let good := "x = a + 1;"
    let bad := "x = ;"
    let path := "bad"
    let look : String → Entry := fun file =>
      if file = "good" then .file good.toUTF8
      else if file = path then .file bad.toUTF8
      else .absent
    let listing : Listing :=
      [.binary .add (.name "a") (.name "1") ⟨0⟩, .assign (.temporary ⟨0⟩) "x"]
    let e : SyntaxError := ⟨.operand, some ⟨.delimiter, ";", ⟨1, 5⟩⟩, ⟨1, 5⟩⟩
    (∃ errors, run "quadc" ["--list", "good", "--list"] look =
      .exit { status := 0, output := listing.render ++ "\n", errors }) ∧
    run "quadc" ["--list", path] look =
      .exit { status := 1, output := "",
              errors := s!"Parsing {path}...\n" ++ e.message ++ "\n" } := by
  intro good bad path look listing e
  have compiled : compile good = .ok listing := by decide +kernel
  have fails : compile bad = .error (.reading e) := by decide +kernel
  constructor
  · obtain ⟨raw, -, printed⟩ :=
      (run_prints_compiled "quadc" "good" good ["--list", "good", "--list"] 1 look (by decide)
        (by decide) rfl).1 listing compiled
    exact ⟨_, printed⟩
  · exact (run_prints_compiled "quadc" path bad ["--list", path] 0 look (by decide)
      (by decide) rfl).2.1 (.reading e) fails

end CommandLine

end Quadrupler
