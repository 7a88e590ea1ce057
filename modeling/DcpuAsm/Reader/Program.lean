import DcpuAsm.Program
import DcpuAsm.Reader.Statement

/-!
Whole programs. `statements` reads statements up to the end of a text, or up to the first fault, and
remembers where each one starts. Every statement that is read is shorter than the text it is read
from, so the reading ends (`properEnd_of_statementAt`).
-/

namespace DcpuAsm

/-- A statement has to be followed by white space, a comment or the end of the text. -/
def boundary : List Char → Committed Unit
  | [] => return ()
  | c :: cs => if startsTrivia c then return () else throw (.trailing (c :: cs))

/-- Nothing may be left. -/
def endOfText : List Char → Committed Unit
  | [] => return ()
  | cs => throw (.trailing cs)

/-- A statement that has to stand here, up to its boundary. -/
def statementAt (cs : List Char) : Committed (Statement × List Char) := do
  let (s, next) ← (statement cs).required
    (.unexpected "a label, instruction or data directive" cs)
  boundary next
  return (s, next)

theorem properEnd_of_statementAt {cs next : List Char} {s : Statement}
    (h : statementAt cs = .ok (s, next)) : ProperEnd next cs := by
  obtain ⟨p, hp, h⟩ := bind_eq_ok.1 h
  obtain ⟨_, _, h⟩ := bind_eq_ok.1 h
  cases h
  exact (statement_advances cs).required hp

/-- A statement, and the text that is left where it starts. -/
structure Placed where
  statement : Statement
  start : List Char
  deriving DecidableEq, Repr

/-- The statements that were accepted, and the fault that stopped the reading, if one did. -/
structure Reading where
  accepted : List Placed
  fault : Option Fault
  deriving DecidableEq, Repr

/-- Reads statements and the trivia behind each up to the end of the text. -/
def statements (cs : List Char) : Reading :=
  if cs = [] then ⟨[], none⟩
  else
    match _hs : statementAt cs with
    | .error fault => ⟨[], some fault⟩
    | .ok (s, next) =>
      let later := statements (skipTrivia next)
      ⟨⟨s, cs⟩ :: later.accepted, later.fault⟩
termination_by cs.length
decreasing_by
  exact ((properEnd_of_statementAt _hs).of_isSuffix (skipTrivia_suffix next)).2

/-- Reads a whole source. -/
def Reading.ofSource (src : List Char) : Reading := statements (skipTrivia src)

/-- The statements read, as a program. -/
def Reading.program (r : Reading) : Program := ⟨r.accepted.map Placed.statement⟩

end DcpuAsm
