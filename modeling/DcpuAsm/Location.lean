import DcpuAsm.Text.Bytes

/-!
Positions in a source text: a byte offset together with the line and the column that a person counts.
`locate` moves an offset past the end to the end and one inside a character to its first byte, so that
every location stands on a character boundary (`offset_locate_le`).
-/

namespace DcpuAsm

/-- A place in a source text. Lines and columns count from one, and a column counts characters. -/
structure Location where
  offset : Nat
  line : Nat
  column : Nat
  deriving DecidableEq, Repr

/-- The location just behind a text that starts a source. Only the line feed ends a line. -/
def Location.after (before : List Char) : Location where
  offset := byteLength before
  line := before.count '\n' + 1
  column := (before.reverse.takeWhile (· ≠ '\n')).length + 1

/-- The location of a byte offset in a source. -/
def locate (src : List Char) (offset : Nat) : Location := .after (takeBytes offset src)

/-- The line and the column, as messages give them. -/
def Location.text (l : Location) : String := toString l.line ++ ":" ++ toString l.column

theorem offset_locate_le (src : List Char) (offset : Nat) : (locate src offset).offset ≤ offset :=
  byteLength_takeBytes_le offset src

example : locate ['a', '\n', 'é', 'b'] 3 = ⟨2, 2, 1⟩ := by decide

end DcpuAsm
