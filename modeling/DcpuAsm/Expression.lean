import DcpuAsm.Text.Numeral

/-!
Operands of instructions. `Expression.text` is the canonical text of an operand; numbers are written
in hexadecimal with four digits, and nothing is parenthesised, so trees that no source denotes may
share a text.
-/

namespace DcpuAsm

/-- An operand. The type nests freely; what a source can denote is one sum of two terms at most, in
one pair of brackets at most. -/
inductive Expression where
  /-- A register or a label. -/
  | identifier (name : String)
  | number (value : UInt16)
  /-- The memory cell at an address. -/
  | addressOf (inner : Expression)
  | sum (left right : Expression)
  deriving DecidableEq, Repr

/-- The canonical text of a machine word: the mark `0x` and four digits in lower case. -/
def wordText (value : UInt16) : String := "0x" ++ .ofList (hexNumeral 4 value.toNat)

/-- The canonical text of an operand. -/
def Expression.text : Expression → String
  | .identifier name => name
  | .number value => wordText value
  | .addressOf inner => "[" ++ inner.text ++ "]"
  | .sum left right => left.text ++ "+" ++ right.text

example : (Expression.addressOf (.sum (.number 0x8000) (.identifier "i"))).text = "[0x8000+i]" := by
  decide

end DcpuAsm
