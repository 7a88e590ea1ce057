import DcpuAsm.Terminal.CharWidth

/-!
Letters that are drawn into the letter behind them, so that both take the columns of one. `Ligature`
is what stands behind: a letter that may still take another one in. Marks may stand in between, other
ones in Arabic (`isJoiningMark`) than elsewhere (`isIgnorableMark`).
-/

namespace DcpuAsm

/-- The letter that a text starts with, for letters in front of it to be drawn into. -/
inductive Ligature where
  /-- An Arabic alef, for a lam. -/
  | alef
  /-- A Hebrew lamed, for an alef. -/
  | lamed
  /-- A Buginese ya, for the vowel sign i. -/
  | ya
  /-- A Buginese ya that took the vowel sign in, for the letter that carries it. -/
  | yaBehindVowel
  /-- A Tifinagh consonant, for another one. -/
  | consonant
  /-- A Tifinagh consonant behind the sign that joins consonants. -/
  | joinedConsonant
  /-- A Lisu tone letter of the second group, for one of the first. -/
  | toneLetter
  /-- An Old Turkic i, for an ec. -/
  | orkhonI
  /-- A Khmer letter that goes below the one before it, for the sign that puts it there. -/
  | subscriptLetter
  deriving DecidableEq, Repr

/-! ### Letters -/

/-- The joining group `Alef`. -/
def alefRanges : List (Nat × Nat) :=
  [(0x622, 0x623), (0x625, 0x625), (0x627, 0x627), (0x671, 0x673), (0x675, 0x675), (0x773, 0x774),
    (0x870, 0x882)]

/-- The joining group `Lam`. -/
def lamRanges : List (Nat × Nat) :=
  [(0x644, 0x644), (0x6B5, 0x6B8), (0x76A, 0x76A), (0x8A6, 0x8A6), (0x8C7, 0x8C7)]

/-- The Tifinagh consonants. -/
def consonantRanges : List (Nat × Nat) :=
  [(0x2D31, 0x2D65), (0x2D6F, 0x2D6F)]

/-- The Khmer letters whose form below another letter does not reach beyond it. -/
def subscriptRanges : List (Nat × Nat) :=
  [(0x1780, 0x1782), (0x1784, 0x1787), (0x1789, 0x178C), (0x178E, 0x1793), (0x1795, 0x1798),
    (0x179B, 0x179D), (0x17A0, 0x17A0), (0x17A2, 0x17A2), (0x17A7, 0x17A7), (0x17AB, 0x17AC),
    (0x17AF, 0x17AF)]

/-- The ligature that a letter is open for. -/
def Ligature.ofChar? (c : Char) : Option Ligature :=
  if inRanges alefRanges c.toNat then some .alef
  else if inRanges consonantRanges c.toNat then some .consonant
  else if inRanges subscriptRanges c.toNat then some .subscriptLetter
  else if inRanges [(0xA4FC, 0xA4FD)] c.toNat then some .toneLetter
  else if c = '\u05dc' then some .lamed
  else if c = '\u1a10' then some .ya
  else if c.toNat = 0x10C03 then some .orkhonI
  else none

/-! ### Marks in between -/

/-- Characters without a column that still part Arabic letters: their joining type is not `T`. -/
def nonJoiningRanges : List (Nat × Nat) :=
  [(0x605, 0x605), (0x890, 0x891), (0x8E2, 0x8E2), (0x9BE, 0x9BE), (0x9D7, 0x9D7), (0xB3E, 0xB3E),
    (0xB57, 0xB57), (0xBBE, 0xBBE), (0xBD7, 0xBD7), (0xCC0, 0xCC0), (0xCC2, 0xCC2), (0xCC7, 0xCC8),
    (0xCCA, 0xCCB), (0xCD5, 0xCD6), (0xD3E, 0xD3E), (0xD4E, 0xD4E), (0xD57, 0xD57), (0xDCF, 0xDCF),
    (0xDDF, 0xDDF), (0x1160, 0x11FF), (0x180E, 0x180E), (0x1B35, 0x1B35), (0x1B3B, 0x1B3B),
    (0x1B3D, 0x1B3D), (0x1B43, 0x1B43), (0x200C, 0x200D), (0x2065, 0x2069), (0x302E, 0x302F),
    (0x3164, 0x3164), (0xA8FA, 0xA8FA), (0xD7B0, 0xD7C6), (0xD7CB, 0xD7FB), (0xFF9E, 0xFFA0),
    (0xFFF0, 0xFFF8), (0x111C2, 0x111C3), (0x1133E, 0x1133E), (0x11357, 0x11357),
    (0x114B0, 0x114B0), (0x114BD, 0x114BD), (0x115AF, 0x115AF), (0x11930, 0x11930),
    (0x1193F, 0x1193F), (0x11941, 0x11941), (0x11A3A, 0x11A3A), (0x11A84, 0x11A89),
    (0x11D46, 0x11D46), (0x11F02, 0x11F02), (0x1D165, 0x1D165), (0x1D16E, 0x1D172),
    (0xE0000, 0xE0000), (0xE0002, 0xE001F), (0xE0080, 0xE00FF), (0xE01F0, 0xE0FFF)]

/-- Does an Arabic ligature reach over the mark? -/
def isJoiningMark (c : Char) : Bool := charWidth c == 0 && !inRanges nonJoiningRanges c.toNat

/-- Marks that leave no trace: combining and `Default_Ignorable_Code_Point`. -/
def ignorableMarkRanges : List (Nat × Nat) :=
  [(0x34F, 0x34F), (0x17B4, 0x17B5), (0x180B, 0x180D), (0x180F, 0x180F), (0xFE00, 0xFE0F),
    (0xE0100, 0xE01EF)]

/-- Does a ligature of another script reach over the mark? -/
def isIgnorableMark (c : Char) : Bool := inRanges ignorableMarkRanges c.toNat

example : ascending nonJoiningRanges = true := by decide +kernel

/-- A vowel mark does not part a lam from an alef, and a joiner does. -/
example : isJoiningMark '\u064e' = true ∧ isJoiningMark '\u200d' = false := by decide +kernel

end DcpuAsm
