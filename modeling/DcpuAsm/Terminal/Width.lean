import DcpuAsm.Listing
import DcpuAsm.Terminal.Onset

/-!
The width that the command lays its listings out with, `displayWidth`: the number of columns that a
text takes on a terminal that draws it as Unicode 15.1 has it. It is read from the end of the text,
since what stands behind a character decides how it is drawn. Main statement:
`countsSpaces_displayWidth`, which is all that listings need of it.
-/

namespace DcpuAsm

/-- Columns that are settled, and the onset of the text they belong to. -/
structure Measure where
  settled : Nat
  onset : Onset
  deriving DecidableEq, Repr

/-- The measure of a text without characters. -/
def Measure.empty : Measure := ⟨0, .plain⟩

/-- All columns of a text. -/
def Measure.columns (m : Measure) : Nat := m.settled + m.onset.lead.pending

/-- Puts a character in front. -/
def Measure.push (c : Char) (m : Measure) : Measure :=
  let (settled, onset) := m.onset.push c
  ⟨m.settled + settled, onset⟩

/-- Puts a text in front. -/
def Measure.pushAll (cs : List Char) (m : Measure) : Measure := cs.foldr Measure.push m

/-- The number of columns of a text. -/
def displayWidth (text : String) : Nat := (Measure.empty.pushAll text.toList).columns

/-! ### Laws -/

/-- What is put in front does not depend on how much is settled behind it. -/
theorem Measure.pushAll_settled (cs : List Char) (n : Nat) (o : Onset) :
    Measure.pushAll cs ⟨n, o⟩ =
      ⟨n + (Measure.pushAll cs ⟨0, o⟩).settled, (Measure.pushAll cs ⟨0, o⟩).onset⟩ := by
  induction cs with
  | nil => rfl
  | cons c cs ih =>
    simp only [Measure.pushAll, List.foldr_cons] at ih ⊢
    rw [ih]
    simp only [Measure.push, Nat.add_assoc]

theorem Measure.push_space (m : Measure) : m.push ' ' = ⟨m.columns + 1, .plain⟩ := by
  simp only [Measure.push, Onset.push_space, Measure.columns, Nat.add_assoc]

theorem displayWidth_append_space (s t : String) :
    displayWidth (s ++ " " ++ t) = displayWidth s + 1 + displayWidth t := by
  have hsplit : (s ++ " " ++ t).toList = s.toList ++ ' ' :: t.toList := by simp
  rw [displayWidth, hsplit, Measure.pushAll, List.foldr_append, List.foldr_cons, Measure.push_space]
  have h := Measure.pushAll_settled s.toList (displayWidth t + 1) .plain
  simp only [displayWidth, Measure.pushAll] at h ⊢
  rw [h]
  simp only [Measure.columns, Measure.empty]
  omega

theorem countsSpaces_displayWidth : CountsSpaces displayWidth := ⟨rfl, displayWidth_append_space⟩

/-- Three people that are joined take the columns of one. -/
example : displayWidth "👨\u200d👩\u200d👧" = 2 := by decide +kernel

/-- A selector widens a heart and narrows a watch. -/
example : displayWidth "❤\ufe0f" = 2 ∧ displayWidth "⌚\ufe0e" = 1 := by decide +kernel

/-- A lam is drawn into the alef behind it. -/
example : displayWidth "سلام" = 3 := by decide +kernel

end DcpuAsm
