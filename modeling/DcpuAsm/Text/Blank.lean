import DcpuAsm.Text.Ranges

/-!
White space as the Unicode property `White_Space` has it, `isBlank`. It is wider than the ASCII class
of the core library: the no-break space and the ideographic space are blank, while the zero width
space and the byte order mark are not.
-/

namespace DcpuAsm

/-- The members of `White_Space` as closed ranges of code points, in order. -/
def blankRanges : List (Nat × Nat) :=
  [(0x9, 0xD), (0x20, 0x20), (0x85, 0x85), (0xA0, 0xA0), (0x1680, 0x1680), (0x2000, 0x200A),
    (0x2028, 0x2029), (0x202F, 0x202F), (0x205F, 0x205F), (0x3000, 0x3000)]

/-- White space of any kind, the line feed included. -/
def isBlank (c : Char) : Bool := inRanges blankRanges c.toNat

theorem isBlank_newline : isBlank '\n' = true := by decide

example : ascending blankRanges = true := by decide

/-- The no-break space is blank, and the zero width space is not. -/
example : isBlank '\u00a0' = true ∧ isBlank '\u200b' = false := by decide

end DcpuAsm
