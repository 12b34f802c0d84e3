import Quadrupler.Proofs.Syntax.Steady
import Quadrupler.Syntax.Reading
set_option autoImplicit false

/-!
# Readings and steps

A step knows which tokens are ahead and how many levels are free, and it gives levels back by
forgetting that it had taken them.  A reading moves a cursor, counts the open levels, and closes
them by lowering the count.  `Follows` says that a reading does to a cursor what a step says, and
that it closes the levels that it owes: those opened before it, which only it can close.  Opening a
level makes what comes next owe one more, and at the end of a chain of operators all levels of the
chain are owed at once.
-/

namespace Quadrupler

open Syntax

/-! ## Where a cursor stands -/

namespace Cursor

variable {α : Type} {cursor : Cursor} {free : Nat} {tokens rest : List Token}

/-- The cursor stands among its tokens, and no more levels are open than may be. -/
structure InBounds (cursor : Cursor) : Prop where
  position_le : cursor.position ≤ cursor.tokens.length
  depth_le : cursor.depth ≤ nestingLimit

/-- These tokens are ahead of the cursor, and so many levels are free. -/
structure At (cursor : Cursor) (free : Nat) (tokens : List Token) : Prop where
  inBounds : cursor.InBounds
  free_eq : cursor.free = free
  rest_eq : cursor.rest = tokens

/-- The cursor before these tokens, which end its own. -/
def moveTo (cursor : Cursor) (rest : List Token) : Cursor :=
  { cursor with position := cursor.tokens.length - rest.length }

/-- What a result of a step makes of a cursor. -/
def settle (cursor : Cursor) : Except Stuck (α × List Token) → Except SyntaxError α × Cursor
  | .ok (value, rest) => (.ok value, cursor.moveTo rest)
  | .error stuck =>
    let there := { cursor.moveTo stuck.rest with depth := nestingLimit - stuck.free }
    (.error (there.error stuck.expected), there)

/-- Runs a step from here. -/
def read (cursor : Cursor) (step : Nat → Step α) : Except SyntaxError α × Cursor :=
  cursor.settle (step cursor.free cursor.rest)

theorem InBounds.at (h : cursor.InBounds) : cursor.At cursor.free cursor.rest := ⟨h, rfl, rfl⟩

theorem inBounds_ofTokens (tokens : List Token) : (ofTokens tokens).InBounds :=
  ⟨Nat.zero_le _, Nat.zero_le _⟩

theorem At.depth_add (h : cursor.At free tokens) : cursor.depth + free = nestingLimit := by
  have least := h.inBounds.depth_le
  have levels := h.free_eq
  unfold Cursor.free at levels
  omega

theorem At.depth_eq (h : cursor.At free tokens) : cursor.depth = nestingLimit - free :=
  Nat.eq_sub_of_add_eq h.depth_add

theorem At.length_add (h : cursor.At free tokens) :
    cursor.position + tokens.length = cursor.tokens.length := by
  have inside := h.inBounds.position_le
  rw [← h.rest_eq, rest, List.length_drop]
  omega

theorem At.peek?_eq (h : cursor.At free tokens) : cursor.peek? = tokens.head? := by
  rw [peek?, h.rest_eq]

theorem At.suffix (h : cursor.At free tokens) : tokens <:+ cursor.tokens :=
  h.rest_eq ▸ List.drop_suffix _ _

theorem At.location_eq {token : Token} (h : cursor.At free (token :: rest)) :
    cursor.location = token.location := by
  rw [location, h.peek?_eq]
  rfl

theorem At.check_eq (h : cursor.At free tokens) (kind : TokenKind) (text : String) :
    cursor.check kind text = begins kind text tokens := by
  rw [check, h.peek?_eq]
  cases tokens with
  | nil => rfl
  | cons token rest => rfl

theorem At.atEnd_eq (h : cursor.At free tokens) : cursor.atEnd = tokens.isEmpty := by
  rw [atEnd, h.rest_eq]

theorem At.moveTo_self (h : cursor.At free tokens) : cursor.moveTo tokens = cursor := by
  have length := h.length_add
  have same : cursor.tokens.length - tokens.length = cursor.position := by omega
  rw [moveTo, same]

theorem At.moveTo (h : cursor.At free tokens) (suffix : rest <:+ tokens) :
    (cursor.moveTo rest).At free rest := by
  have part := suffix.trans h.suffix
  refine ⟨⟨Nat.sub_le _ _, h.inBounds.depth_le⟩, h.free_eq, ?_⟩
  exact (List.suffix_iff_eq_drop.mp part).symm

theorem At.advance {token : Token} (h : cursor.At free (token :: rest)) :
    cursor.advance = { cursor with position := cursor.position + 1 } ∧
      cursor.advance.At free rest := by
  have moved : cursor.advance = { cursor with position := cursor.position + 1 } := by
    rw [Cursor.advance, h.atEnd_eq]
    rfl
  have length := h.length_add
  rw [List.length_cons] at length
  refine ⟨moved, moved ▸ ⟨⟨?_, h.inBounds.depth_le⟩, h.free_eq, ?_⟩⟩
  · dsimp only
    omega
  · have ahead := h.rest_eq
    unfold Cursor.rest at ahead ⊢
    rw [← List.tail_drop, ahead]
    rfl

theorem At.retreat_advance {token : Token} (h : cursor.At free (token :: rest)) :
    cursor.advance.retreat = cursor := by
  rw [h.advance.1]
  rfl

/-- Only the tokens and the open levels of the cursor before matter to where a result leads. -/
theorem settle_congr {other : Cursor} (tokens : other.tokens = cursor.tokens)
    (depth : other.depth = cursor.depth) (result : Except Stuck (α × List Token)) :
    other.settle result = cursor.settle result := by
  have moved (rest : List Token) : other.moveTo rest = cursor.moveTo rest := by
    rw [moveTo, moveTo, tokens, depth]
  cases result with
  | error stuck => rw [settle, settle, moved]
  | ok read => rw [settle, settle, moved]

end Cursor

/-! ## What readings do -/

namespace Reading

variable {α β : Type} {reading : Reading α} {next : α → Reading β} {cursor : Cursor}

theorem outcome_bind_ok {value : α} {after : Cursor}
    (h : reading.outcome cursor = (.ok value, after)) :
    (reading >>= next).outcome cursor = (next value).outcome after := by
  have run : reading.run cursor = (.ok value, after) := h
  simp only [outcome, ExceptT.run_bind, StateT.run_bind]
  rw [StateT.run, run]
  rfl

theorem outcome_bind_error {e : SyntaxError} {after : Cursor}
    (h : reading.outcome cursor = (.error e, after)) :
    (reading >>= next).outcome cursor = (.error e, after) := by
  have run : reading.run cursor = (.error e, after) := h
  simp only [outcome, ExceptT.run_bind, StateT.run_bind]
  rw [StateT.run, run]
  rfl

theorem outcome_get (next : Cursor → Reading α) (cursor : Cursor) :
    (MonadState.get >>= next).outcome cursor = (next cursor).outcome cursor := rfl

theorem outcome_move_ok {f : Cursor → Except SyntaxError Cursor} {after : Cursor}
    (h : f cursor = .ok after) : (move f).outcome cursor = (.ok (), after) := by
  rw [move, outcome_get, h]
  rfl

theorem outcome_move_error {f : Cursor → Except SyntaxError Cursor} {e : SyntaxError}
    (h : f cursor = .error e) : (move f).outcome cursor = (.error e, cursor) := by
  rw [move, outcome_get, h]
  rfl

/-- A token that is not accepted stays where it is. -/
theorem outcome_accept_other {free : Nat} {tokens : List Token} {kind : TokenKind} {text : String}
    {taken other : Reading α} (there : cursor.At free tokens)
    (isNot : begins kind text tokens = false) :
    (accept kind text >>= fun found => if found = true then taken else other).outcome cursor =
      other.outcome cursor := by
  have missed : cursor.accept? kind text = none := by
    rw [Cursor.accept?, there.check_eq, isNot]
    rfl
  have took : (accept kind text).outcome cursor = (.ok false, cursor) := by
    rw [accept, outcome_get, missed]
    rfl
  rw [outcome_bind_ok took]
  rfl

/-- From every cursor before these tokens, with so many levels free, the reading does what the
result says, and closes the levels that it owes. -/
def Follows (owed : Nat) (reading : Reading α) (free : Nat) (tokens : List Token)
    (result : Except Stuck (α × List Token)) : Prop :=
  ∀ cursor : Cursor, cursor.At free tokens → owed ≤ cursor.depth →
    reading.outcome cursor = (cursor.exit owed).settle result

namespace Follows

variable {owed free : Nat} {tokens rest : List Token} {token : Token}
  {result : Except Stuck (α × List Token)} {kind : TokenKind} {text : String}

/-! ### Single moves -/

theorem pure (value : α) (tokens : List Token) :
    Follows 0 (Pure.pure value) free tokens (.ok (value, tokens)) := by
  intro cursor there _
  rw [Cursor.settle, Cursor.exit, Nat.sub_zero, there.moveTo_self]
  rfl

/-- Nothing but closing the levels is left to be done. -/
theorem exit (owed : Nat) (value : α) (tokens : List Token) :
    Follows owed (Reading.exit owed >>= fun _ => Pure.pure value) free tokens
      (.ok (value, tokens)) := by
  intro cursor there _
  have same : (cursor.exit owed).moveTo tokens = (cursor.moveTo tokens).exit owed := rfl
  rw [Cursor.settle, same, there.moveTo_self]
  rfl

theorem fail (expected : Expectation) (tokens : List Token) :
    Follows owed (Reading.fail expected : Reading α) free tokens
      (.error ⟨expected, tokens, free⟩) := by
  intro cursor there _
  have same : { (cursor.exit owed).moveTo tokens with depth := nestingLimit - free } = cursor := by
    rw [← there.depth_eq]
    exact there.moveTo_self
  simp only [Cursor.settle, same]
  rfl

theorem peek {next : Option Token → Reading α}
    (h : Follows owed (next tokens.head?) free tokens result) :
    Follows owed (Reading.peek >>= next) free tokens result := by
  intro cursor there owes
  have looked : Reading.peek.outcome cursor = (.ok tokens.head?, cursor) := by
    rw [← there.peek?_eq]
    rfl
  rw [outcome_bind_ok looked]
  exact h cursor there owes

theorem here {next : Location → Reading α}
    (h : ∀ location, (∀ token ∈ tokens.head?, location = token.location) →
      Follows owed (next location) free tokens result) :
    Follows owed (Reading.here >>= next) free tokens result := by
  intro cursor there owes
  refine h cursor.location (fun token first => ?_) cursor there owes
  cases tokens with
  | nil => cases first
  | cons token' rest =>
    cases first
    exact there.location_eq

theorem here_cons {next : Location → Reading α}
    (h : Follows owed (next token.location) free (token :: rest) result) :
    Follows owed (Reading.here >>= next) free (token :: rest) result :=
  here fun _ place => place token rfl ▸ h

/-- What a reading does may depend on what is ahead. -/
theorem get {next : Cursor → Reading α}
    (h : ∀ cursor : Cursor, cursor.At free tokens → Follows owed (next cursor) free tokens result) :
    Follows owed (MonadState.get >>= next) free tokens result :=
  fun cursor there owes => h cursor there cursor there owes

/-- What comes next starts from another place with the same levels open. -/
theorem of_outcome {moved : Cursor} {first : Reading β} {next : β → Reading α} {value : β}
    {cursor : Cursor} (took : first.outcome cursor = (.ok value, moved))
    (there : moved.At free rest) (tokens : moved.tokens = cursor.tokens)
    (depth : moved.depth = cursor.depth) (owes : owed ≤ cursor.depth)
    (h : Follows owed (next value) free rest result) :
    (first >>= next).outcome cursor = (cursor.exit owed).settle result := by
  have tokens : (moved.exit owed).tokens = (cursor.exit owed).tokens := tokens
  have depth' : (moved.exit owed).depth = (cursor.exit owed).depth := congrArg (· - owed) depth
  rw [outcome_bind_ok took, h moved there (depth ▸ owes)]
  exact Cursor.settle_congr tokens depth' result

theorem advance {reading : Reading α} (h : Follows owed reading free rest result) :
    Follows owed (Reading.advance >>= fun _ => reading) free (token :: rest) result := by
  intro cursor there owes
  obtain ⟨moved, ahead⟩ := there.advance
  have took : Reading.advance.outcome cursor = (.ok (), cursor.advance) := rfl
  exact of_outcome took ahead (by rw [moved]) (by rw [moved]) owes h

theorem accept {taken other : Reading α} (is : token.is kind text = true)
    (h : Follows owed taken free rest result) :
    Follows owed (Reading.accept kind text >>= fun found => if found = true then taken else other)
      free (token :: rest) result := by
  intro cursor there owes
  obtain ⟨moved, ahead⟩ := there.advance
  have found : cursor.accept? kind text = some cursor.advance := by
    rw [Cursor.accept?, there.check_eq, begins_cons, if_pos is]
  have took : (Reading.accept kind text).outcome cursor = (.ok true, cursor.advance) := by
    rw [Reading.accept, outcome_get, found]
    rfl
  exact of_outcome took ahead (by rw [moved]) (by rw [moved]) owes h

theorem accept_other {taken other : Reading α} (isNot : begins kind text tokens = false)
    (h : Follows owed other free tokens result) :
    Follows owed (Reading.accept kind text >>= fun found => if found = true then taken else other)
      free tokens result := by
  intro cursor there owes
  rw [outcome_accept_other there isNot]
  exact h cursor there owes

theorem check {taken other : Reading α} (is : begins kind text tokens = true)
    (h : Follows owed taken free tokens result) :
    Follows owed (do if (← MonadState.get).check kind text then taken else other) free tokens
      result := by
  refine get fun cursor there => ?_
  rwa [there.check_eq, if_pos is]

theorem check_other {taken other : Reading α} (isNot : begins kind text tokens = false)
    (h : Follows owed other free tokens result) :
    Follows owed (do if (← MonadState.get).check kind text then taken else other) free tokens
      result := by
  refine get fun cursor there => ?_
  rwa [there.check_eq, if_neg (Bool.eq_false_iff.mp isNot)]

/-! ### Sequences -/

theorem bind {first : Reading β} {next : β → Reading α} {result : Except Stuck (β × List Token)}
    {step : β × List Token → Except Stuck (α × List Token)}
    (proceeds : Proceeds free tokens result) (h : Follows 0 first free tokens result)
    (h' : ∀ value rest, rest <:+ tokens →
      Follows owed (next value) free rest (step (value, rest))) :
    Follows owed (first >>= next) free tokens (result >>= step) := by
  intro cursor there owes
  have did := h cursor there (Nat.zero_le _)
  cases result with
  | error stuck => exact outcome_bind_error did
  | ok read =>
    obtain ⟨value, rest⟩ := read
    exact of_outcome did (there.moveTo proceeds) rfl (Nat.sub_zero _) owes
      (h' value rest proceeds)

theorem expect_bind {reading : Reading α} {step : List Token → Except Stuck (α × List Token)}
    (h : ∀ rest, Follows owed reading free rest (step rest)) :
    Follows owed (Reading.expect kind text >>= fun _ => reading) free tokens
      (Syntax.expect free kind text tokens >>= step) := by
  intro cursor there owes
  rw [Syntax.expect]
  split
  · rename_i is
    cases tokens with
    | nil => cases is
    | cons token rest =>
      obtain ⟨moved, ahead⟩ := there.advance
      have found : cursor.expect kind text = .ok cursor.advance := by
        rw [Cursor.expect, Cursor.accept?, there.check_eq, if_pos is]
      exact of_outcome (outcome_move_ok found) ahead (by rw [moved]) (by rw [moved]) owes (h rest)
  · rename_i isNot
    have missed : cursor.expect kind text = .error (cursor.error (.exactly text)) := by
      rw [Cursor.expect, Cursor.accept?, there.check_eq, if_neg isNot]
    have stuck : (Reading.expect kind text).outcome cursor =
        (.error (cursor.error (.exactly text)), cursor) := outcome_move_error missed
    rw [outcome_bind_error stuck]
    exact Follows.fail (.exactly text) tokens cursor there owes

/-! ### Levels -/

theorem enter_zero {reading : Reading α} (tokens : List Token) :
    Follows owed (Reading.enter >>= fun _ => reading) 0 tokens
      (.error ⟨.fewerLevels, tokens, 0⟩) := by
  intro cursor there owes
  have levels := there.depth_add
  have full : cursor.enter = .error (cursor.error .fewerLevels) := by
    rw [Cursor.enter, if_pos (by omega)]
  rw [Reading.enter, outcome_bind_error (outcome_move_error full)]
  exact Follows.fail .fewerLevels tokens cursor there owes

/-- A level is opened, and what comes next owes it. -/
theorem enter {reading : Reading α} (h : Follows (owed + 1) reading free tokens result) :
    Follows owed (Reading.enter >>= fun _ => reading) (free + 1) tokens result := by
  intro cursor there owes
  have levels := there.depth_add
  let opened : Cursor := { cursor with depth := cursor.depth + 1 }
  have entered : cursor.enter = .ok opened := by
    rw [Cursor.enter, if_neg (by omega)]
  have fewer : nestingLimit - (cursor.depth + 1) = free := by omega
  have within : cursor.depth + 1 ≤ nestingLimit := by omega
  have inside : opened.At free tokens :=
    ⟨⟨there.inBounds.position_le, within⟩, fewer, there.rest_eq⟩
  have closed : opened.exit (owed + 1) = cursor.exit owed := by
    have levels : cursor.depth + 1 - (owed + 1) = cursor.depth - owed := Nat.add_sub_add_right _ 1 _
    rw [Cursor.exit, Cursor.exit, levels]
  rw [Reading.enter, outcome_bind_ok (outcome_move_ok entered),
    h opened inside (Nat.succ_le_succ owes), closed]

/-- No cursor has more levels free than the limit. -/
theorem of_le_nestingLimit
    (h : free ≤ nestingLimit → Follows owed reading free tokens result) :
    Follows owed reading free tokens result := by
  intro cursor there owes
  have levels := there.depth_add
  exact h (by omega) cursor there owes

end Follows

/-! ## Reading again and again -/

section Repetition

variable {free : Nat} {step : Step α} {stop : Cursor → Bool} {stop' : List Token → Bool}

theorem follows_upTo (stops : ∀ {cursor : Cursor} {tokens}, cursor.At free tokens →
      stop cursor = stop' tokens)
    (steady : Steady free step) (h : ∀ tokens, Follows 0 reading free tokens (step tokens))
    (bound : Nat) (tokens : List Token) :
    Follows 0 (upTo stop reading bound) free tokens (readMany stop' step bound tokens) := by
  induction bound generalizing tokens with
  | zero => exact .pure [] tokens
  | succ bound ih =>
    refine .get fun cursor there => ?_
    rw [stops there, readMany]
    split
    · exact .pure [] tokens
    · refine .bind (steady tokens) (h tokens) fun first rest _ => ?_
      refine .bind (readMany_steady steady bound rest) (ih rest) fun others rest _ => ?_
      exact .pure (first :: others) rest

theorem follows_many (stops : ∀ {cursor : Cursor} {tokens}, cursor.At free tokens →
      stop cursor = stop' tokens)
    (steady : Steady free step) (h : ∀ tokens, Follows 0 reading free tokens (step tokens))
    (tokens : List Token) :
    Follows 0 (many stop reading) free tokens (readUntil stop' step tokens) := by
  refine .get fun cursor there => ?_
  rw [there.rest_eq]
  refine follows_upTo (fun there => ?_) steady h tokens.length tokens
  rw [stops there, there.atEnd_eq, Bool.or_comm]

end Repetition

end Reading

end Quadrupler
