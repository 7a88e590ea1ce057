import DcpuAsm.Grammar

/-!
The trees that a source can stand for. The types of operands and statements hold more: sums in sums,
brackets in brackets, names that are no words, strings with quotes in them. `WellFormed` picks out
those that keep to the limits of the language.
-/

namespace DcpuAsm

open Grammar (IsWord IsIdentifier)

/-- A single term with a proper name, or a number. -/
def Expression.IsTerm : Expression → Prop
  | .identifier name => IsIdentifier name.toList
  | .number _ => True
  | _ => False

/-- A term or the sum of two terms. -/
def Expression.IsFlat : Expression → Prop
  | .sum left right => left.IsTerm ∧ right.IsTerm
  | e => e.IsTerm

/-- At most one pair of brackets around at most one sum. -/
def Expression.WellFormed : Expression → Prop
  | .addressOf inner => inner.IsFlat
  | e => e.IsFlat

/-- A string keeps to one line and holds no quote. -/
def DataItem.WellFormed : DataItem → Prop
  | .string content => '"' ∉ content.toList ∧ '\n' ∉ content.toList
  | .number _ => True

/-- Names are words, mnemonics are in the table of their arity, and a data directive is not empty. -/
def Statement.WellFormed : Statement → Prop
  | .label name => IsWord name.toList
  | .unary mnemonic operand => upperCase mnemonic ∈ unaryMnemonics ∧ operand.WellFormed
  | .binary mnemonic destination source =>
    upperCase mnemonic ∈ binaryMnemonics ∧ destination.WellFormed ∧ source.WellFormed
  | .data items => items ≠ [] ∧ ∀ i ∈ items, i.WellFormed

/-- All statements are well formed. -/
def Program.WellFormed (p : Program) : Prop := ∀ s ∈ p.statements, s.WellFormed

end DcpuAsm
