import DcpuAsm.Proofs.Exactness
import DcpuAsm.Proofs.Fails.Program
import DcpuAsm.Proofs.Narrow

/-!
Operands in instructions against operands on their own. The text in front of the last operand, a
mnemonic with a space or that and a first operand with its comma, leads to the same rule
(`EmbedsOperand`). What follows the operand is checked in two ways, as the end of the text or as the
end of a statement, which is the same where the text holds no trivia. Main statement:
`statementParse_operand`, the operand is read or refused as it is alone, as many columns further on
as stand in front of it.
-/

namespace DcpuAsm

open Grammar (IsIdentifier IsOperand)

variable {c : Char} {cs w mid front before : List Char} {word : String} {e : Expression}
variable {fault : Fault} {wrap : Expression → Statement}

/-- A diagnostic found `n` columns further to the right. -/
def Diagnostic.shift (d : Diagnostic) (n : Nat) : Diagnostic where
  cause := d.cause
  location :=
    { offset := d.location.offset + n
      line := d.location.line
      column := d.location.column + n }

/-- Behind `front` a text is read as the operand that it is alone, and refused for the same reason,
`n` columns further on. -/
structure ReadsOperandBehind (front : String) (wrap : Expression → Statement) (n : Nat)
    (text : String) : Prop where
  ok : ∀ x, Expression.parse text = .ok x → Statement.parse (front ++ text) = .ok (wrap x)
  error : ∀ d, Expression.parse text = .error d →
    Statement.parse (front ++ text) = .error (d.shift n)

/-! ### Up to the operand -/

/-- The text leads a statement to its last operand. -/
def EmbedsOperand (front : List Char) (wrap : Expression → Statement) : Prop :=
  ∀ cs, Stops startsTrivia cs → statement (front ++ cs) =
    .ofExcept ((operand cs).map fun p => (wrap p.1, p.2))

theorem separated_space (h : Stops startsTrivia cs) (expected : String) :
    separated expected (' ' :: cs) = .ok cs := by
  rw [separated_eq_ok_iff, skipTrivia_cons_of_blank (by decide), skipTrivia_of_stops h]
  exact ⟨rfl, by simp [startsTrivia, isBlank, inRanges, blankRanges]⟩

theorem embedsOperand_unary (h : upperCase word ∈ unaryMnemonics) :
    EmbedsOperand (word.toList ++ [' ']) (.unary word) := by
  intro cs hcs
  have hbody : unaryOperands word (' ' :: cs) =
      (operand cs).map fun p => (.unary word p.1, p.2) := by
    simp only [unaryOperands, separated_space hcs, bind, Except.bind]
    cases operand cs <;> rfl
  rw [List.append_assoc]
  refine statement_of_gap (isIdentifier_of_three_letters (three_letters_of_mnemonic (Or.inr h))) ?_ ?_
  · exact not_stops_iff.2 ⟨' ', cs, rfl, by decide⟩
  · exact body?_eq_some_iff.2 (Or.inr (Or.inl ⟨h, hbody.symm⟩))

theorem embedsOperand_binary (h : upperCase word ∈ binaryMnemonics) (hw : IsOperand w e) :
    EmbedsOperand (word.toList ++ ' ' :: (w ++ [','])) (.binary word e) := by
  intro cs hcs
  have hfirst : operand (w ++ ',' :: cs) = .ok (e, ',' :: cs) :=
    operand_eq_ok_iff.2 (expression_reads.complete hw (stops_cons.2 (by decide)))
  have hcomma : afterComma? (',' :: cs) = some cs :=
    afterComma?_eq_some_iff.2
      ⟨cs, skipTrivia_of_stops (stops_cons.2 (by decide)), skipTrivia_of_stops hcs⟩
  have hbody : binaryOperands word (' ' :: (w ++ ',' :: cs)) =
      (operand cs).map fun p => (.binary word e p.1, p.2) := by
    simp only [binaryOperands, separated_space (stops_of_isOperand hw _), bind, Except.bind, hfirst,
      hcomma]
    cases operand cs <;> rfl
  have hsplit : word.toList ++ ' ' :: (w ++ [',']) ++ cs = word.toList ++ ' ' :: (w ++ ',' :: cs) := by
    simp
  rw [hsplit]
  refine statement_of_gap (isIdentifier_of_three_letters (three_letters_of_mnemonic (Or.inl h))) ?_ ?_
  · exact not_stops_iff.2 ⟨' ', w ++ ',' :: cs, rfl, by decide⟩
  · exact body?_eq_some_iff.2 (Or.inr (Or.inr ⟨h, hbody.symm⟩))

/-! ### Behind the operand -/

/-- No character of the text may start trivia. -/
def HoldsNoTrivia (cs : List Char) : Prop := ∀ c ∈ cs, startsTrivia c = false

theorem HoldsNoTrivia.stops (h : HoldsNoTrivia cs) {next : List Char} (hnext : next <:+ cs) :
    Stops startsTrivia next := by
  cases next with
  | nil => exact stops_nil
  | cons c next => exact stops_cons.2 (h c (hnext.subset List.mem_cons_self))

/-- Whatever is left of a text without trivia is refused as the end of a statement. -/
theorem HoldsNoTrivia.not_mayEnd (h : HoldsNoTrivia cs) {next : List Char} (hnext : next <:+ cs)
    (hne : next ≠ []) : ¬ MayEnd next := by
  rw [mayEnd_iff, not_or, not_not]
  exact ⟨hne, h.stops hnext⟩

theorem EmbedsOperand.statementOnly_eq (h : EmbedsOperand front wrap) (hcs : HoldsNoTrivia cs)
    (hfront : Stops startsTrivia (front ++ cs)) :
    statementOnly (front ++ cs) = (operandOnly cs).map wrap := by
  have hst := h cs (hcs.stops List.suffix_rfl)
  cases hop : operandOnly cs with
  | ok e =>
    rw [operandOnly_eq_ok_iff_reads.1 hop] at hst
    refine statementOnly_eq_ok_iff_reads.2 ⟨[], ?_, skipTrivia_of_stops stops_nil⟩
    rw [skipTrivia_of_stops hfront]
    exact statementAt_eq_ok_iff.2 ⟨hst, stops_nil⟩
  | error fault =>
    refine statementOnly_eq_error_iff.2 (Or.inl ?_)
    rw [skipTrivia_of_stops hfront, statementAt_eq_error_iff]
    rcases operandOnly_eq_error_iff.1 hop with hfailed | ⟨e, next, he, hne, rfl⟩
    · rw [hfailed] at hst
      exact Or.inr (Or.inl hst)
    · rw [he] at hst
      exact Or.inr (Or.inr ⟨wrap e, next, hst,
        hcs.not_mayEnd (properEnd_of_operand he).1 hne, rfl⟩)

/-! ### Columns -/

theorem diagnose_behind (hfront : ∀ c ∈ front, IsNarrow c) (hcs : '\n' ∉ cs)
    (hrest : fault.rest <:+ cs) :
    fault.diagnose (front ++ cs) = (fault.diagnose cs).shift front.length := by
  obtain ⟨before, rfl⟩ := hrest
  have hbefore : '\n' ∉ before := fun h => hcs (List.mem_append_left _ h)
  rw [← List.append_assoc, diagnose_append, diagnose_append,
    Location.after_append_of_narrow hfront hbefore]
  rfl

/-! ### Both entry points -/

theorem EmbedsOperand.readsOperandBehind {text : String} (h : EmbedsOperand front wrap)
    (hnarrow : ∀ c ∈ front, IsNarrow c) (hfront : Stops startsTrivia (front ++ text.toList))
    (htext : HoldsNoTrivia text.toList) :
    ReadsOperandBehind (.ofList front) wrap front.length text := by
  have hboth := h.statementOnly_eq htext hfront
  have hsrc : (String.ofList front ++ text).toList = front ++ text.toList := by simp
  have hline : '\n' ∉ text.toList := fun hmem => absurd (htext '\n' hmem) (by decide)
  refine ⟨fun x hx => ?_, fun d hd => ?_⟩
  · rw [diagnosed_eq_ok_iff.1 hx] at hboth
    exact diagnosed_eq_ok_iff.2 (by rw [hsrc, hboth]; rfl)
  · obtain ⟨fault, hfault, rfl⟩ := diagnosed_eq_error_iff.1 hd
    obtain ⟨before, -, hbefore, -⟩ := operandOnly_fails.completable hfault
    rw [hfault] at hboth
    refine diagnosed_eq_error_iff.2 ⟨fault, by rw [hsrc, hboth]; rfl, ?_⟩
    rw [hsrc, diagnose_behind hnarrow hline ⟨before, hbefore.symm⟩]

/-- A mnemonic starts a statement, and takes three columns. -/
theorem mnemonic_front (h : upperCase word ∈ binaryMnemonics ∨ upperCase word ∈ unaryMnemonics)
    (r : List Char) :
    (∀ c ∈ word.toList, IsNarrow c) ∧ word.toList.length = 3 ∧
      Stops startsTrivia (word.toList ++ r) := by
  obtain ⟨hlen, hall⟩ := three_letters_of_mnemonic h
  have halnum := fun c hc => isAlphanum_of_isAlpha (hall c hc)
  refine ⟨fun c hc => isNarrow_of_isAlphanum (halnum c hc), hlen, ?_⟩
  obtain ⟨c, ds, hc⟩ := List.exists_cons_of_length_eq_add_one hlen
  rw [hc, List.cons_append, stops_cons]
  exact startsTrivia_eq_false_of_isAlphanum (halnum c (hc ▸ List.mem_cons_self))

/-- A text without trivia is read behind a mnemonic, and behind a mnemonic and a first operand, as it
is read alone. -/
theorem statementParse_operand {text : String}
    (htext : ∀ c ∈ text.toList, isBlank c = false ∧ c ≠ ';') :
    (∀ u, arity? u = some .unary → ReadsOperandBehind (u ++ " ") (.unary u) 4 text) ∧
      ∀ m first y, arity? m = some .binary → Expression.parse first = .ok y →
        ReadsOperandBehind (m ++ " " ++ first ++ ",") (.binary m y)
          (5 + byteLength first.toList) text := by
  have hplain : HoldsNoTrivia text.toList := fun c hc => by simp [startsTrivia, htext c hc]
  refine ⟨fun u hu => ?_, fun m first y hm hy => ?_⟩
  · have hmem : upperCase u ∈ unaryMnemonics := arity?_eq_some_iff.1 hu
    obtain ⟨hnarrow, hlen, hstart⟩ := mnemonic_front (Or.inr hmem) ([' '] ++ text.toList)
    have hall : ∀ c ∈ u.toList ++ [' '], IsNarrow c := by
      rw [List.forall_mem_append]
      exact ⟨hnarrow, List.forall_mem_singleton.2 (by decide)⟩
    rw [← List.append_assoc] at hstart
    have hread := (embedsOperand_unary hmem).readsOperandBehind hall hstart hplain
    rwa [List.length_append, hlen, String.ofList_append, String.ofList_toList] at hread
  · have hfirst := expressionParse_eq_ok_iff.1 hy
    have hmem : upperCase m ∈ binaryMnemonics := arity?_eq_some_iff.1 hm
    obtain ⟨hnarrow, hlen, hstart⟩ :=
      mnemonic_front (Or.inl hmem) (' ' :: (first.toList ++ [',']) ++ text.toList)
    have hall : ∀ c ∈ m.toList ++ ' ' :: (first.toList ++ [',']), IsNarrow c := by
      simp only [List.forall_mem_append, List.forall_mem_cons]
      exact ⟨hnarrow, by decide, hfirst.narrow, by decide, List.forall_mem_nil _⟩
    rw [← List.append_assoc] at hstart
    have hread := (embedsOperand_binary hmem hfirst).readsOperandBehind hall hstart hplain
    have hfront : m ++ " " ++ first ++ "," =
        .ofList (m.toList ++ ' ' :: (first.toList ++ [','])) := by
      rw [← String.toList_inj]
      simp
    have hcolumns : (m.toList ++ ' ' :: (first.toList ++ [','])).length =
        5 + byteLength first.toList := by
      simp only [List.length_append, List.length_cons, List.length_nil, hlen,
        byteLength_eq_length hfirst.narrow]
      omega
    rwa [hfront, ← hcolumns]

/-- A bracket that is open on its own is open behind a mnemonic and behind a first operand. -/
theorem statementParse_operand_open_bracket :
    (∀ c ∈ "[x+9".toList, isBlank c = false ∧ c ≠ ';') ∧
      Statement.parse ("jsr" ++ " " ++ "[x+9") =
        .error ⟨.unterminated .addressOf "`]`", ⟨8, 1, 9⟩⟩ ∧
      Statement.parse ("SET" ++ " " ++ "a+1" ++ "," ++ "[x+9") =
        .error ⟨.unterminated .addressOf "`]`", ⟨12, 1, 13⟩⟩ := by
  have hall : "[x+9".toList.all (fun c => isBlank c = false ∧ c ≠ ';') = true := by decide
  have htext : ∀ c ∈ "[x+9".toList, isBlank c = false ∧ c ≠ ';' :=
    fun c hc => of_decide_eq_true (List.all_eq_true.1 hall c hc)
  have halone : Expression.parse "[x+9" =
      .error ⟨.unterminated .addressOf "`]`", ⟨4, 1, 5⟩⟩ :=
    diagnosed_eq_error_iff.2 ⟨.unterminated .addressOf "`]`" [], by decide, by decide⟩
  have hfirst : Expression.parse "a+1" = .ok (.sum (.identifier "a") (.number 1)) :=
    diagnosed_eq_ok_iff.2 (by decide)
  obtain ⟨hunary, hbinary⟩ := statementParse_operand htext
  exact ⟨htext, (hunary "jsr" (by decide)).error _ halone,
    (hbinary "SET" "a+1" _ (by decide) hfirst).error _ halone⟩

end DcpuAsm
