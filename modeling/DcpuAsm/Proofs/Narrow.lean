import DcpuAsm.Proofs.Position
import DcpuAsm.Proofs.Reads.Lexeme

/-!
Text of one byte to a character and on one line. Words, numbers and operands are of this kind, so
their bytes, characters and columns are the same number. Main statements: `Grammar.IsOperand.narrow`,
and text of this kind moves a location to the right (`Location.after_append_of_narrow`).
-/

namespace DcpuAsm

open Grammar (IsNumber IsTerm IsFlat IsOperand)

variable {c : Char} {w front before : List Char} {e : Expression}

/-- A character that takes one byte and does not end the line. -/
def IsNarrow (c : Char) : Prop := c.toNat < 128 ∧ c ≠ '\n'

instance (c : Char) : Decidable (IsNarrow c) :=
  inferInstanceAs (Decidable (c.toNat < 128 ∧ c ≠ '\n'))

theorem isNarrow_of_isAlphanum (h : c.isAlphanum = true) : IsNarrow c := by
  refine ⟨toNat_lt_of_isAlphanum h, ?_⟩
  rintro rfl
  exact absurd h (by decide)

theorem byteLength_eq_length (h : ∀ c ∈ w, IsNarrow c) : byteLength w = w.length := by
  induction w with
  | nil => rfl
  | cons c w ih =>
    rw [List.forall_mem_cons] at h
    have hone : c.utf8Size = 1 :=
      Char.utf8Size_eq_one_iff.2 (UInt32.le_iff_toNat_le.2 (Nat.le_of_lt_succ h.1.1))
    rw [byteLength_cons, ih h.2, hone, List.length_cons, Nat.add_comm]

theorem not_mem_newline (h : ∀ c ∈ w, IsNarrow c) : '\n' ∉ w :=
  fun hmem => (h '\n' hmem).2 rfl

theorem Grammar.IsTerm.narrow (h : IsTerm w e) : ∀ c ∈ w, IsNarrow c := by
  cases h with
  | identifier hw => exact fun c hc => isNarrow_of_isAlphanum (hw.1.2 c hc)
  | number hw => exact fun c hc => isNarrow_of_isAlphanum (hw.isAlphanum c hc)

theorem Grammar.IsFlat.narrow (h : IsFlat w e) : ∀ c ∈ w, IsNarrow c := by
  cases h with
  | term hw => exact hw.narrow
  | sum hl hr =>
    simp only [List.forall_mem_append, List.forall_mem_cons]
    exact ⟨hl.narrow, by decide, hr.narrow⟩

/-- Operands are written in ASCII and on one line. -/
theorem Grammar.IsOperand.narrow (h : IsOperand w e) : ∀ c ∈ w, IsNarrow c := by
  cases h with
  | flat hw => exact hw.narrow
  | addressOf hw =>
    simp only [List.cons_append, List.forall_mem_append, List.forall_mem_cons]
    exact ⟨by decide, hw.narrow, by decide, List.forall_mem_nil _⟩

/-- Text on the same line moves a location to the right. -/
theorem Location.after_append_of_narrow (hfront : ∀ c ∈ front, IsNarrow c) (hbefore : '\n' ∉ before) :
    Location.after (front ++ before) =
      { offset := (Location.after before).offset + front.length
        line := (Location.after before).line
        column := (Location.after before).column + front.length } := by
  have hboth : '\n' ∉ front ++ before := by
    rw [List.mem_append, not_or]
    exact ⟨not_mem_newline hfront, hbefore⟩
  simp only [Location.after_of_not_mem hbefore, Location.after_of_not_mem hboth, byteLength_append,
    byteLength_eq_length hfront, List.length_append, Location.mk.injEq, true_and]
  omega

end DcpuAsm
