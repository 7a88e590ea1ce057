import DcpuAsm.Log
import DcpuAsm.Reader.Program

/-!
Reading source text: `Program.parse`, `Statement.parse` and `Expression.parse`. A program may be
surrounded and separated by trivia, a statement surrounded, and an expression has to cover the text
with none. `Program.parseLogged` also tells what was accepted on the way, one record to a statement.
-/

namespace DcpuAsm

/-- An answer about a source, with the fault located in it. -/
def diagnosed {α : Type} (src : List Char) : Committed α → Except Diagnostic α
  | .ok value => .ok value
  | .error fault => .error (fault.diagnose src)

/-- What a reading of a source amounts to. -/
def Reading.result (r : Reading) : Committed Program :=
  match r.fault with
  | none => .ok r.program
  | some fault => .error fault

/-- Reads a whole source as a sequence of statements. -/
def Program.parse (src : String) : Except Diagnostic Program :=
  diagnosed src.toList (Reading.ofSource src.toList).result

/-- Reads one statement that takes up a whole text. -/
def statementOnly (cs : List Char) : Committed Statement := do
  let (s, next) ← statementAt (skipTrivia cs)
  endOfText (skipTrivia next)
  return s

/-- Reads a source as exactly one statement, with trivia around it. -/
def Statement.parse (src : String) : Except Diagnostic Statement :=
  diagnosed src.toList (statementOnly src.toList)

/-- Reads one operand that takes up a whole text. -/
def operandOnly (cs : List Char) : Committed Expression := do
  let (e, next) ← operand cs
  endOfText next
  return e

/-- Reads a source as exactly one expression. -/
def Expression.parse (src : String) : Except Diagnostic Expression :=
  diagnosed src.toList (operandOnly src.toList)

/-! ### The log of a reading -/

/-- An accepted statement: where it starts and its canonical text. -/
def Placed.record (src : List Char) (p : Placed) : Record :=
  ⟨.grammar, .trace, (locateRest src p.start).text ++ ": " ++ p.statement.text⟩

/-- The count of statements, as records give it. -/
def Program.countText (p : Program) : String := "parsed " ++ toString p.size ++ " statement(s)"

/-- The record that ends the reading of a program. -/
def Program.countRecord (p : Program) : Record := ⟨.grammar, .debug, p.countText⟩

/-- The records of a reading: the accepted statements in order, and their count if nothing was
wrong. -/
def Reading.records (src : List Char) (r : Reading) : List Record :=
  let accepted := r.accepted.map (Placed.record src)
  match r.fault with
  | none => accepted ++ [r.program.countRecord]
  | some _ => accepted

/-- Reads a whole source, and tells what was accepted. -/
def Program.parseLogged (src : String) : List Record × Except Diagnostic Program :=
  let reading := Reading.ofSource src.toList
  (reading.records src.toList, diagnosed src.toList reading.result)

/-- Reads one statement. Only the loop over statements tells what it accepts. -/
def Statement.parseLogged (src : String) : List Record × Except Diagnostic Statement :=
  ([], Statement.parse src)

/-- Reads one expression, which tells nothing either. -/
def Expression.parseLogged (src : String) : List Record × Except Diagnostic Expression :=
  ([], Expression.parse src)

end DcpuAsm
