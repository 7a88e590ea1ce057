import DcpuAsm.Statement

/-!
Programs: the statements of a source in the order they were written, which is the order in which an
encoder would emit them. `Program.text` writes one statement to a line.
-/

namespace DcpuAsm

/-- The statements of a source. -/
structure Program where
  statements : List Statement
  deriving DecidableEq, Repr

instance : EmptyCollection Program := ⟨⟨[]⟩⟩

/-- The number of statements. -/
def Program.size (p : Program) : Nat := p.statements.length

def Program.isEmpty (p : Program) : Bool := p.statements.isEmpty

/-- The canonical text of a program. Each statement ends its line. -/
def Program.text (p : Program) : String := String.join (p.statements.map fun s => s.text ++ "\n")

example : (Program.mk [.label "end", .unary "jsr" (.number 1)]).text = ":end\njsr 0x0001\n" := by
  decide

end DcpuAsm
