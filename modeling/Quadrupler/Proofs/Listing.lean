import Quadrupler.Proofs.Names
import Quadrupler.Quadruple.Listing
set_option autoImplicit false

/-!
# Reading a listing back

A listing is drawn as a table with spaces, bars and line feeds.  Texts are padded to the width of
their column but never cut, so a line may be longer than others, and what stands in its columns is
found by the bars.  This works because no text in the code of a program holds a character that the
table is drawn with: variables and numbers are words of the program, and all else is made of
letters, digits and signs.
-/

namespace Quadrupler

/-! ## Fields -/

namespace Text

theorem fields_eq_splitOn (separator : Char) (cs : List Char) :
    fields separator cs = cs.splitOn separator := by
  induction cs with
  | nil => rw [fields, List.splitOn_nil]
  | cons c cs ih =>
    rw [fields, ih, List.splitOn_cons_eq_if_modifyHead]
    simp only [beq_iff_eq]
    split
    · rfl
    · cases pieces : cs.splitOn separator with
      | nil => exact absurd pieces (List.splitOn_ne_nil _ _)
      | cons field others => rfl

theorem fields_intercalate {separator : Char} {pieces : List (List Char)} (nonempty : pieces ≠ [])
    (h : ∀ piece ∈ pieces, separator ∉ piece) :
    fields separator ([separator].intercalate pieces) = pieces := by
  rw [fields_eq_splitOn]
  exact List.splitOn_intercalate separator h nonempty

theorem mem_intercalate {separator c : Char} {pieces : List (List Char)}
    (h : c ∈ [separator].intercalate pieces) : c = separator ∨ ∃ piece ∈ pieces, c ∈ piece := by
  induction pieces with
  | nil => cases h
  | cons piece pieces ih =>
    cases pieces with
    | nil =>
      rw [List.intercalate_singleton] at h
      exact .inr ⟨piece, List.mem_cons_self, h⟩
    | cons next pieces =>
      rw [List.intercalate_cons_cons, List.mem_append, List.mem_append, List.mem_singleton] at h
      obtain (here | same) | later := h
      · exact .inr ⟨piece, List.mem_cons_self, here⟩
      · exact .inl same
      · refine (ih later).imp_right ?_
        rintro ⟨other, member, inside⟩
        exact ⟨other, List.mem_cons_of_mem piece member, inside⟩

/-- Spaces in front are cut off, up to a text that does not begin with one. -/
theorem dropWhile_spaces {cs : List Char} (h : cs.head? ≠ some ' ') (n : Nat) :
    (List.replicate n ' ' ++ cs).dropWhile (· = ' ') = cs := by
  rw [List.dropWhile_append_of_pos (by simp)]
  cases cs with
  | nil => rfl
  | cons c cs =>
    have visible : c ≠ ' ' := by simpa using h
    simp [visible]

theorem trimmed_spaces {text : List Char} (h : ' ' ∉ text) (before after : Nat) :
    trimmed (List.replicate before ' ' ++ text ++ List.replicate after ' ') = text := by
  cases text with
  | nil => simp [trimmed]
  | cons c cs =>
    have first : (c :: cs ++ List.replicate after ' ').head? ≠ some ' ' := by
      simpa using Ne.symm (List.ne_of_not_mem_cons h)
    have last : (c :: cs).reverse.head? ≠ some ' ' :=
      fun space => h (List.mem_reverse.mp (List.mem_of_head? space))
    rw [trimmed, List.append_assoc, dropWhile_spaces first, List.reverse_append,
      List.reverse_replicate, dropWhile_spaces last, List.reverse_reverse]

end Text

/-! ## Lines of a table -/

namespace Listing

/-- A character that tables are drawn with. -/
def draws (c : Char) : Bool := decide (c ∈ [' ', '|', '\n'])

/-- The text can stand in a table. -/
def Legible (text : List Char) : Prop := ∀ c ∈ text, draws c = false

theorem Legible.not_mem {text : List Char} (h : Legible text) {c : Char} (drawn : draws c = true) :
    c ∉ text :=
  fun member => absurd (drawn.symm.trans (h c member)) (by decide)

/-- A text of a line, and how many spaces stand before and after it. -/
structure Cell where
  before : Nat
  text : String
  after : Nat

def Cell.chars (cell : Cell) : List Char :=
  List.replicate cell.before ' ' ++ cell.text.toList ++ List.replicate cell.after ' '

theorem Cell.not_mem_chars {cell : Cell} (h : Legible cell.text.toList) {c : Char}
    (drawn : draws c = true) (other : c ≠ ' ') : c ∉ cell.chars := by
  simp [chars, h.not_mem drawn, other]

/-- The cells of a line. -/
def cells (operation first second result : String) : List Cell :=
  [⟨0, operation, operationWidth - operation.length + 1⟩,
   ⟨1, first, operandWidth - first.length + 1⟩,
   ⟨1, second, operandWidth - second.length + 1⟩,
   ⟨1, result, 0⟩]

variable {operation first second result : String}

theorem toList_row :
    (row operation first second result).toList =
      ['|'].intercalate ((cells operation first second result).map Cell.chars) := by
  simp [row, rule, cells, Cell.chars, Text.padRight, Text.toList_pushn, List.replicate_succ']

section

variable (h : ∀ text ∈ [operation, first, second, result], Legible text.toList)

include h

theorem legible_of_mem_cells {cell : Cell} (member : cell ∈ cells operation first second result) :
    Legible cell.text.toList :=
  h cell.text (List.mem_map_of_mem member)

theorem columns_row :
    columns (row operation first second result).toList =
      [operation, first, second, result].map String.toList := by
  have bars : Text.fields '|' (row operation first second result).toList =
      (cells operation first second result).map Cell.chars := by
    rw [toList_row]
    refine Text.fields_intercalate (List.cons_ne_nil _ _) (List.forall_mem_map.mpr ?_)
    exact fun cell member => Cell.not_mem_chars (legible_of_mem_cells h member) rfl (by decide)
  calc columns (row operation first second result).toList
      = (cells operation first second result).map (Text.trimmed ∘ Cell.chars) := by
        rw [columns, bars, List.map_map]
    _ = (cells operation first second result).map (String.toList ∘ Cell.text) :=
        List.map_congr_left fun cell member =>
          Text.trimmed_spaces ((legible_of_mem_cells h member).not_mem rfl) _ _
    _ = [operation, first, second, result].map String.toList := rfl

theorem feed_not_mem_row : '\n' ∉ (row operation first second result).toList := by
  rw [toList_row]
  intro feed
  obtain bar | ⟨chars, member, inside⟩ := Text.mem_intercalate feed
  · exact absurd bar (by decide)
  · obtain ⟨cell, known, rfl⟩ := List.mem_map.mp member
    exact Cell.not_mem_chars (legible_of_mem_cells h known) rfl (by decide) inside

end

end Listing

/-- What stands in the columns of a quadruple. -/
def Quadruple.texts (q : Quadruple) : List String :=
  [q.operation.render, q.first.render, q.second.render, q.result.render]

namespace Listing

/-- The lines of a table are its header and one line for each quadruple. -/
theorem fields_render {q : Listing}
    (h : ∀ entry ∈ q, ∀ text ∈ entry.texts, Legible text.toList) :
    Text.fields '\n' q.render.toList =
      header.toList :: q.map fun entry => entry.row.toList := by
  have lines : q.render.toList =
      ['\n'].intercalate (header.toList :: q.map fun entry => entry.row.toList) := by
    simp [render, String.toList_intercalate, Function.comp_def]
  rw [lines, Text.fields_intercalate (List.cons_ne_nil _ _)]
  refine List.forall_mem_cons.mpr ⟨by decide, List.forall_mem_map.mpr ?_⟩
  exact fun entry member => feed_not_mem_row (h entry member)

end Listing

/-! ## Legible texts -/

theorem Label.toList_name (l : Label) : l.name.toList = 'L' :: Nat.toDigits 10 l.index := by
  have letter : (toString "L").toList = ['L'] := by decide
  simp [name, letter]

namespace Listing

variable {text others : List Char}

theorem Legible.append (h : Legible text) (h' : Legible others) : Legible (text ++ others) :=
  List.forall_mem_append.mpr ⟨h, h'⟩

/-- Tables are drawn with no character of this class. -/
theorem legible_of_forall {p : Char → Bool} (all : ∀ c ∈ text, p c = true)
    (none : ([' ', '|', '\n'].all fun d => !p d) = true) : Legible text := by
  intro c member
  refine decide_eq_false fun drawn => ?_
  have other := List.all_eq_true.mp none c drawn
  simp [all c member] at other

theorem legible_of_all (h : (text.all fun c => !draws c) = true) : Legible text :=
  legible_of_forall (List.all_eq_true.mp h) rfl

theorem legible_digits (h : ∀ c ∈ text, c.isDigit = true) : Legible text :=
  legible_of_forall h rfl

theorem legible_numbered (letter : Char) (n : Nat) (h : draws letter = false) :
    Legible (letter :: Nat.toDigits 10 n) := by
  refine List.forall_mem_cons.mpr ⟨h, legible_digits fun c member => ?_⟩
  exact Nat.isDigit_of_mem_toDigits (by decide) (by decide) member

theorem legible_operation (operation : Operation) : Legible operation.render.toList := by
  cases operation with
  | binary op =>
    refine legible_of_all ?_
    cases op <;> rfl
  | label l =>
    have label : (Operation.label l).render.toList = l.name.toList ++ [':'] :=
      String.toList_append
    rw [label, l.toList_name]
    exact (legible_numbered 'L' l.index rfl).append (legible_of_all rfl)
  | _ => exact legible_of_all rfl

/-- Only a name can spoil a table. -/
theorem legible_operand {x : Operand} (h : ∀ name, x = .name name → Legible name.toList) :
    Legible x.render.toList := by
  cases x with
  | absent => exact List.forall_mem_nil _
  | name text => exact h text rfl
  | temporary u =>
    rw [Operand.render, u.toList_name]
    exact legible_numbered 't' u.index rfl
  | label l =>
    rw [Operand.render, l.toList_name]
    exact legible_numbered 'L' l.index rfl

theorem legible_of_isNumber (h : Lexeme.IsNumber text) : Legible text := by
  rcases h with digits | ⟨whole, part, rfl, digits, digits'⟩
  · exact legible_digits digits.2
  · exact (legible_digits digits.2).append
      (List.forall_mem_cons.mpr ⟨rfl, legible_digits digits'.2⟩)

theorem legible_of_isWord (h : Lexeme.IsWord text) : Legible text := by
  obtain ⟨c, cs, rfl, letter, parts⟩ := h
  have all : ∀ d ∈ c :: cs, Lexeme.isWordPart d = true :=
    List.forall_mem_cons.mpr ⟨Lexeme.isWordPart_of_isAlpha letter, fun d member =>
      Lexeme.isWordPart_iff.mpr (parts d member)⟩
  exact legible_of_forall all rfl

end Listing

/-! ## Compiled texts -/

theorem Token.isWord_of_mem {token : Token} {here : Location} {opened cs : List Char}
    (h : token ∈ scanFrom here opened cs) (identifier : token.kind = .identifier) :
    Lexeme.IsWord token.text.toList := by
  obtain ⟨before, c, rest, opened', -, rfl⟩ := exists_first_of_mem h
  have munches := (Lexeme.begins_first c rest).munches
    (ne_of_eq_of_ne identifier (by decide)) (ne_of_eq_of_ne identifier (by decide))
  rw [identifier] at munches
  cases munches with
  | identifier longest _ => exact longest.fits

variable {source : String} {q : Listing}

/-- What the code of a program mentions is a word or a number of the program, or the amount of a
step. -/
theorem legible_of_mentions (compiled : compile source = .ok q) {name : String}
    (h : q.Mentions name) : Listing.Legible name.toList := by
  obtain ⟨t, -, within, mentioned⟩ := mentions_of_compile compiled
  obtain ⟨kind, member, rfl⟩ := List.mem_map.mp ((mentioned name).mp h)
  obtain rfl | ⟨token, there, made⟩ := within kind member
  · exact Listing.legible_of_all rfl
  · obtain ⟨number, rfl⟩ | ⟨identifier, rfl⟩ := Token.of_atom?_eq_some made
    · exact Listing.legible_of_isNumber (Token.isNumber_of_mem there number)
    · exact Listing.legible_of_isWord (Token.isWord_of_mem there identifier)

theorem legible_of_compile (compiled : compile source = .ok q) {entry : Quadruple}
    (member : entry ∈ q) : ∀ text ∈ entry.texts, Listing.Legible text.toList := by
  have operand (x : Operand) (inside : x ∈ entry.operands) : Listing.Legible x.render.toList := by
    refine Listing.legible_operand fun name same => legible_of_mentions compiled ?_
    exact List.mem_flatMap.mpr ⟨entry, member, same ▸ inside⟩
  simp only [Quadruple.operands, List.forall_mem_cons] at operand
  obtain ⟨hfirst, hsecond, hresult, -⟩ := operand
  simp only [Quadruple.texts, List.forall_mem_cons]
  exact ⟨Listing.legible_operation _, hfirst, hsecond, hresult, List.forall_mem_nil _⟩

/-- The listing of a program can be read back.  Cut into lines, it is the header and one line for
each quadruple in order; and cut at the bars, with the spaces around each piece removed, a line is
the texts of the quadruple's operation, operands and result, however long these are. -/
theorem compile_render_read_back (source : String) (q : Listing)
    (compiled : compile source = .ok q) :
    ∃ lines, Text.fields '\n' q.render.toList = Listing.header.toList :: lines ∧
      lines.map Listing.columns = q.map fun entry =>
        [entry.operation.render, entry.first.render, entry.second.render,
         entry.result.render].map String.toList := by
  refine ⟨q.map fun entry => entry.row.toList,
    Listing.fields_render fun entry member => legible_of_compile compiled member, ?_⟩
  rw [List.map_map]
  refine List.map_congr_left fun entry member => ?_
  rw [Function.comp_apply, Quadruple.row]
  exact Listing.columns_row (legible_of_compile compiled member)

/-- The name of the variable is longer than its column, and the label has no operands. -/
theorem compile_render_read_back_while :
    let source := "while (a) \x7blongVariable++;\x7d"
    let q : Listing :=
      [.label ⟨0⟩, .ifFalse (.name "a") ⟨1⟩, .binary .add (.name "longVariable") (.name "1") ⟨0⟩,
       .assign (.temporary ⟨0⟩) "longVariable", .goto ⟨0⟩, .label ⟨1⟩]
    compile source = .ok q ∧
      ∃ lines, Text.fields '\n' q.render.toList = Listing.header.toList :: lines ∧
        lines.map Listing.columns =
          [["L0:", "", "", ""], ["if_false", "a", "", "L1"], ["+", "longVariable", "1", "t0"],
           ["=", "t0", "", "longVariable"], ["goto", "", "", "L0"], ["L1:", "", "", ""]].map
            (List.map String.toList) := by
  intro source q
  have compiled : compile source = .ok q := by decide +kernel
  exact ⟨compiled, compile_render_read_back source q compiled⟩

end Quadrupler
