import Mathlib.Data.List.TFAE
import Mathlib.Tactic.TFAE
import DcpuAsm.WellFormed
import DcpuAsm.Proofs.Exactness

/-!
Canonical texts and the trees they stand for. What the grammar derives is well formed, and the
canonical text of a well-formed tree is derived as that tree, whatever stands behind it (`Line` of a
statement does not look further). Main statement: `canonical_text_exact`, for all trees there are,
being read from some text, being well formed and being read from the canonical text are the same.
-/

namespace DcpuAsm

open Grammar (IsNumber IsTerm IsFlat IsOperand IsItem Items Trivia Gap Line Lines Derives)

variable {w cs next : List Char} {e : Expression} {i : DataItem} {s : Statement}
variable {ss : List Statement}

/-! ### What is derived is well formed -/

theorem Grammar.IsTerm.isTerm (h : IsTerm w e) : e.IsTerm := by
  cases h with
  | identifier hw => rwa [Expression.IsTerm, String.toList_ofList]
  | number _ => trivial

theorem Expression.IsTerm.isFlat (h : e.IsTerm) : e.IsFlat := by
  cases e with
  | identifier _ => exact h
  | number _ => exact h
  | addressOf _ => exact h
  | sum _ _ => exact absurd h id

theorem Expression.IsFlat.wellFormed (h : e.IsFlat) : e.WellFormed := by
  cases e with
  | identifier _ => exact h
  | number _ => exact h
  | addressOf _ => exact absurd h id
  | sum _ _ => exact h

theorem Grammar.IsFlat.isFlat (h : IsFlat w e) : e.IsFlat := by
  cases h with
  | term ht => exact ht.isTerm.isFlat
  | sum hl hr => exact ⟨hl.isTerm, hr.isTerm⟩

theorem Grammar.IsOperand.wellFormed (h : IsOperand w e) : e.WellFormed := by
  cases h with
  | flat hf => exact hf.isFlat.wellFormed
  | addressOf hf => exact hf.isFlat

theorem Grammar.IsItem.wellFormed (h : IsItem w i) : i.WellFormed := by
  cases h with
  | string hquote hline => rw [DataItem.WellFormed, String.toList_ofList]; exact ⟨hquote, hline⟩
  | number _ => trivial

theorem Grammar.Items.wellFormed {items : List DataItem} (h : Items cs items next) :
    items ≠ [] ∧ ∀ i ∈ items, i.WellFormed := by
  induction h with
  | one hi => exact ⟨List.cons_ne_nil _ _, fun _ hm => List.mem_singleton.1 hm ▸ hi.wellFormed⟩
  | more hi _ _ _ ih =>
    refine ⟨List.cons_ne_nil _ _, fun j hm => ?_⟩
    rcases List.mem_cons.1 hm with rfl | hm
    · exact hi.wellFormed
    · exact ih.2 j hm

theorem Grammar.Line.wellFormed (h : Line cs s next) : s.WellFormed := by
  cases h with
  | label hw => rwa [Statement.WellFormed, String.toList_ofList]
  | data _ _ hs => exact hs.wellFormed
  | unary hm _ he => exact ⟨hm, he.wellFormed⟩
  | binary hm _ hd _ _ he => exact ⟨hm, hd.wellFormed, he.wellFormed⟩

theorem Grammar.Lines.wellFormed (h : Lines cs ss) : ∀ s ∈ ss, s.WellFormed := by
  induction h with
  | nil => exact fun _ hm => absurd hm List.not_mem_nil
  | last hl _ => exact fun _ hm => List.mem_singleton.1 hm ▸ hl.wellFormed
  | cons hl _ _ ih =>
    intro s hm
    rcases List.mem_cons.1 hm with rfl | hm
    · exact hl.wellFormed
    · exact ih s hm

/-! ### What is well formed is derived from its text -/

theorem isHexDigit_toDigits (n : Nat) : ∀ c ∈ Nat.toDigits 16 n, c.isHexDigit = true := by
  have hdigit : ∀ d < 16, (Nat.digitChar d).isHexDigit = true := by decide
  induction n using Nat.strongRecOn with
  | _ n ih =>
    rw [Nat.toDigits_eq_if (by decide)]
    split
    · next h => exact fun c hm => List.mem_singleton.1 hm ▸ hdigit n h
    · next h =>
      intro c hm
      rcases List.mem_append.1 hm with hm | hm
      · exact ih (n / 16) (by omega) c hm
      · exact List.mem_singleton.1 hm ▸ hdigit _ (Nat.mod_lt n (by decide))

theorem isHexDigit_hexNumeral (width n : Nat) : ∀ c ∈ hexNumeral width n, c.isHexDigit = true := by
  intro c hm
  rw [hexNumeral, List.leftpad, List.mem_append] at hm
  rcases hm with hm | hm
  · rw [List.eq_of_mem_replicate hm]; decide
  · exact isHexDigit_toDigits n c hm

theorem hexNumeral_ne_nil (width n : Nat) : hexNumeral width n ≠ [] := by
  rw [hexNumeral, List.leftpad]
  exact List.append_ne_nil_of_right_ne_nil _ Nat.toDigits_ne_nil

theorem length_hexNumeral (width n : Nat) :
    (hexNumeral width n).length = max width (Nat.toDigits 16 n).length := by
  rw [hexNumeral, List.leftpad, List.length_append, List.length_replicate]
  omega

theorem toList_wordText (v : UInt16) :
    (wordText v).toList = '0' :: 'x' :: hexNumeral 4 v.toNat := by
  simp [wordText]

theorem isNumber_wordText (v : UInt16) : IsNumber (wordText v).toList v := by
  rw [toList_wordText]
  exact .hexadecimal (hexNumeral_ne_nil 4 _) (isHexDigit_hexNumeral 4 _)
    (numeralValue_hexNumeral 4 _)

theorem Expression.IsTerm.derived (h : e.IsTerm) : Grammar.IsTerm e.text.toList e := by
  cases e with
  | identifier name =>
    have ht := Grammar.IsTerm.identifier h
    rwa [String.ofList_toList] at ht
  | number v => exact .number (isNumber_wordText v)
  | addressOf _ => exact absurd h id
  | sum _ _ => exact absurd h id

theorem Expression.IsFlat.derived (h : e.IsFlat) : Grammar.IsFlat e.text.toList e := by
  cases e with
  | identifier name => exact .term (Expression.IsTerm.derived h)
  | number v => exact .term (Expression.IsTerm.derived h)
  | addressOf _ => exact absurd h id
  | sum l r =>
    have hs := Grammar.IsFlat.sum (Expression.IsTerm.derived h.1) (Expression.IsTerm.derived h.2)
    simpa [Expression.text] using hs

theorem Expression.WellFormed.derived (h : e.WellFormed) : IsOperand e.text.toList e := by
  cases e with
  | identifier name => exact .flat (Expression.IsFlat.derived h)
  | number v => exact .flat (Expression.IsFlat.derived h)
  | addressOf inner =>
    have ha := IsOperand.addressOf (Expression.IsFlat.derived h)
    simpa [Expression.text] using ha
  | sum l r => exact .flat (Expression.IsFlat.derived h)

theorem DataItem.WellFormed.derived (h : i.WellFormed) : IsItem i.text.toList i := by
  cases i with
  | string content =>
    have hi := IsItem.string h.1 h.2
    rw [String.ofList_toList] at hi
    simpa [DataItem.text] using hi
  | number v => exact .number (isNumber_wordText v)

theorem trivia_space (cs : List Char) : Trivia (' ' :: cs) cs := .blank (by decide) .none

theorem trivia_newline (cs : List Char) : Trivia ('\n' :: cs) cs := .blank (by decide) .none

theorem gap_space (cs : List Char) : Gap (' ' :: cs) cs := .blank (by decide) .none

theorem gap_newline (cs : List Char) : Gap ('\n' :: cs) cs := .blank (by decide) .none

/-- Written items are derived with a comma and a space between them. -/
theorem items_intercalate : ∀ {items : List DataItem}, items ≠ [] → (∀ i ∈ items, i.WellFormed) →
    ∀ next, Items ((", ".intercalate (items.map DataItem.text)).toList ++ next) items next
  | [], hne, _, _ => absurd rfl hne
  | [i], _, hwf, next => by
    rw [List.map_singleton, String.intercalate_singleton]
    exact .one (hwf i (List.mem_singleton_self i)).derived
  | i :: j :: items, _, hwf, next => by
    have hi := (hwf i List.mem_cons_self).derived
    have hs := items_intercalate (List.cons_ne_nil j items)
      (fun k hk => hwf k (List.mem_cons_of_mem i hk)) next
    simpa [String.intercalate_cons_cons] using Items.more hi .none (trivia_space _) hs

/-- A written statement is derived, whatever follows. -/
theorem Statement.WellFormed.derived (h : s.WellFormed) (next : List Char) :
    Line (s.text.toList ++ next) s next := by
  cases s with
  | label name =>
    have hl : Line (':' :: name.toList ++ next) (.label (.ofList name.toList)) next := .label h
    simpa [Statement.text] using hl
  | unary mnemonic operand =>
    have hm : upperCase (.ofList mnemonic.toList) ∈ unaryMnemonics := by
      rw [String.ofList_toList]; exact h.1
    have hl : Line _ _ next := .unary hm (gap_space _) h.2.derived
    simpa [Statement.text] using hl
  | binary mnemonic destination source =>
    have hm : upperCase (.ofList mnemonic.toList) ∈ binaryMnemonics := by
      rw [String.ofList_toList]; exact h.1
    have hl : Line _ _ next :=
      .binary hm (gap_space _) h.2.1.derived .none (trivia_space _) h.2.2.derived
    simpa [Statement.text] using hl
  | data items =>
    have hk : upperCase (.ofList ['d', 'a', 't']) = "DAT" := by decide
    have hl := Line.data hk (gap_space _) (items_intercalate h.1 h.2 next)
    simpa [Statement.text] using hl

theorem lines_text : ∀ {ss : List Statement}, (∀ s ∈ ss, s.WellFormed) →
    Lines (Program.text ⟨ss⟩).toList ss
  | [], _ => .nil
  | [s], hwf => by
    have hl := (hwf s (List.mem_singleton_self s)).derived ['\n']
    have hs := Lines.last hl (trivia_newline [])
    simpa [Program.text] using hs
  | s :: t :: ss, hwf => by
    have hlater := lines_text fun u hu => hwf u (List.mem_cons_of_mem s hu)
    have hl := (hwf s List.mem_cons_self).derived ('\n' :: (Program.text ⟨t :: ss⟩).toList)
    have hs := Lines.cons hl (gap_newline _) hlater
    simpa [Program.text] using hs

/-! ### Round trips -/

theorem Program.WellFormed.derives {p : Program} (h : p.WellFormed) :
    Derives p.text.toList p.statements :=
  ⟨_, .none, lines_text h⟩

theorem Statement.WellFormed.derives (h : s.WellFormed) : Derives s.text.toList [s] := by
  have hl := h.derived []
  rw [List.append_nil] at hl
  exact ⟨_, .none, .last hl .none⟩

theorem Grammar.Derives.wellFormed {src : List Char} (h : Derives src ss) :
    ∀ s ∈ ss, s.WellFormed :=
  let ⟨_, _, hlines⟩ := h
  hlines.wellFormed

/-- Of all programs, statements and operands just the well-formed ones are read from any text, and
they are read from their canonical text. -/
theorem canonical_text_exact :
    (∀ p : Program, [∃ src, Program.parse src = .ok p, p.WellFormed,
      Program.parse p.text = .ok p].TFAE) ∧
    (∀ s : Statement, [∃ src, Statement.parse src = .ok s, s.WellFormed,
      Statement.parse s.text = .ok s].TFAE) ∧
    ∀ e : Expression, [∃ src, Expression.parse src = .ok e, e.WellFormed,
      Expression.parse e.text = .ok e].TFAE := by
  refine ⟨fun p => ?_, fun s => ?_, fun e => ?_⟩
  · tfae_have 1 → 2 := fun ⟨_, h⟩ => (programParse_eq_ok_iff.1 h).wellFormed
    tfae_have 2 → 3 := fun h => programParse_eq_ok_iff.2 h.derives
    tfae_have 3 → 1 := fun h => ⟨p.text, h⟩
    tfae_finish
  · tfae_have 1 → 2 := fun ⟨_, h⟩ =>
      (statementParse_eq_ok_iff.1 h).wellFormed s (List.mem_singleton_self s)
    tfae_have 2 → 3 := fun h => statementParse_eq_ok_iff.2 h.derives
    tfae_have 3 → 1 := fun h => ⟨s.text, h⟩
    tfae_finish
  · tfae_have 1 → 2 := fun ⟨_, h⟩ => (expressionParse_eq_ok_iff.1 h).wellFormed
    tfae_have 2 → 3 := fun h => expressionParse_eq_ok_iff.2 h.derived
    tfae_have 3 → 1 := fun h => ⟨e.text, h⟩
    tfae_finish

end DcpuAsm
