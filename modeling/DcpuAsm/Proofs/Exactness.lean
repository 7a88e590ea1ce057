import DcpuAsm.Proofs.Reads.Program

/-!
The reader against the grammar. The grammar cuts a text in any way its rules allow, while the reader
goes from left to right, takes as much as it can, commits itself to the first rule that applies and
checks afterwards how a statement ends. Main statement: `parse_eq_ok_iff_derives`, both have the
same texts, with the same trees, and no text has two.
-/

namespace DcpuAsm

open Grammar (Derives IsOperand)

theorem programParse_eq_ok_iff {src : String} {p : Program} :
    Program.parse src = .ok p ↔ Derives src.toList p.statements :=
  diagnosed_eq_ok_iff.trans result_ofSource_eq_ok_iff

theorem statementParse_eq_ok_iff {src : String} {s : Statement} :
    Statement.parse src = .ok s ↔ Derives src.toList [s] :=
  diagnosed_eq_ok_iff.trans statementOnly_eq_ok_iff

theorem expressionParse_eq_ok_iff {src : String} {e : Expression} :
    Expression.parse src = .ok e ↔ IsOperand src.toList e :=
  diagnosed_eq_ok_iff.trans operandOnly_eq_ok_iff

/-- Each entry point accepts just what the grammar derives, and the grammar derives no text twice.
-/
theorem parse_eq_ok_iff_derives (src : String) :
    (∀ p, Program.parse src = .ok p ↔ Derives src.toList p.statements) ∧
      (∀ s, Statement.parse src = .ok s ↔ Derives src.toList [s]) ∧
      (∀ e, Expression.parse src = .ok e ↔ IsOperand src.toList e) ∧
      ∀ ss ts, Derives src.toList ss → Derives src.toList ts → ss = ts := by
  refine ⟨fun p => programParse_eq_ok_iff, fun s => statementParse_eq_ok_iff,
    fun e => expressionParse_eq_ok_iff, fun ss ts hs ht => ?_⟩
  have h₁ : Program.parse src = .ok ⟨ss⟩ := programParse_eq_ok_iff.2 hs
  have h₂ : Program.parse src = .ok ⟨ts⟩ := programParse_eq_ok_iff.2 ht
  rw [h₁] at h₂
  cases h₂
  rfl

end DcpuAsm
