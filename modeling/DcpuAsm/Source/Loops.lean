import DcpuAsm.Source

/-!
The two loops of the reader as they go over byte offsets, turn by turn: `Source.programTurn` over the
statements of a source and `Source.itemTurn` over the items of a data directive. A loop goes on as long
as its turns do, and nothing counts them; `Ends` relates a state to the answer that it comes to, if it
comes to one.
-/

namespace DcpuAsm

/-! ### Loops -/

/-- What one turn of a loop comes to: an answer, or the state from which to go on. -/
inductive Turn (σ α : Type) where
  | done (answer : α)
  | again (state : σ)

/-- The loop comes from a state to an answer in so many turns. -/
inductive Ends {σ α : Type} (turn : σ → Turn σ α) : Nat → σ → α → Prop where
  | done {state : σ} {answer : α} (h : turn state = .done answer) : Ends turn 1 state answer
  | again {n : Nat} {state later : σ} {answer : α} (h : turn state = .again later)
      (hlater : Ends turn n later answer) : Ends turn (n + 1) state answer

/-- Where a loop over a source has come to: what it has read, and the offset it goes on from. -/
structure Reached (ι : Type) where
  read : List ι
  pos : Nat

namespace Source

/-! ### The loops of the reader -/

/-- One turn of the loop over statements: it is at the end, or it reads a statement up to its
boundary and skips the trivia behind it. -/
def programTurn (s : Source) (reached : Reached Statement) :
    Turn (Reached Statement) (Except Diagnostic Program) :=
  if s.isAtEnd reached.pos then .done (.ok ⟨reached.read⟩)
  else
    match statementAt (s.restAt reached.pos) with
    | .error fault => .done (.error (fault.diagnose s.chars))
    | .ok (statement, next) =>
      .again ⟨reached.read ++ [statement], s.skipTriviaAt (s.offsetOf next)⟩

/-- No item stands where one is due, in front of the list or behind a comma. -/
def missingItem (s : Source) (reached : Reached DataItem) : Diagnostic :=
  if reached.read.isEmpty then s.unexpectedAt reached.pos "a string or numeric data item"
  else ⟨.unterminated .dataList "a data item after `,`", s.locationAt reached.pos⟩

/-- One turn of the loop over the items of a data directive: it reads an item and looks for a comma
behind its trivia, past which it goes on. The offset it answers is the one behind the last item. -/
def itemTurn (s : Source) (reached : Reached DataItem) :
    Turn (Reached DataItem) (Except Diagnostic (List DataItem × Nat)) :=
  match s.scan dataItem reached.pos with
  | .noMatch => .done (.error (s.missingItem reached))
  | .failed diagnostic => .done (.error diagnostic)
  | .matched item next =>
    if s.startsWith (s.skipTriviaAt next) ',' then
      .again ⟨reached.read ++ [item], s.skipTriviaAt (s.skipTriviaAt next + 1)⟩
    else .done (.ok (reached.read ++ [item], next))

end Source

end DcpuAsm
