import DcpuAsm.Proofs.Exactness
import DcpuAsm.Proofs.Offsets
import DcpuAsm.Proofs.RoundTrip
import DcpuAsm.Source.Loops

/-!
Progress of the reader, and what it bounds. Each match of a rule ends further on (`IsRule.movesOn`),
so the bytes ahead of a loop of the reader get fewer at each turn and it comes to an answer
(`exists_ends`), which is the answer of the reader (`Source.eq_statements_of_ends`,
`Source.eq_dataItems_of_ends`). Main statement: `reader_progress`, with the bound on the number of
statements that progress and the gaps between statements give.
-/

namespace DcpuAsm

open Grammar (Gap Line Lines Trivia)

/-! ### Rules -/

/-- The rules of the reader that may match, from statements down to numbers and strings. -/
inductive IsRule : {α : Type} → (List Char → Attempt α) → Prop where
  | label : IsRule label
  | dataDirective : IsRule dataDirective
  | instruction (arity : Arity) : IsRule (instruction arity)
  | statement : IsRule statement
  | expression : IsRule expression
  | addressOf : IsRule addressOf
  | flatExpression : IsRule flatExpression
  | term : IsRule term
  | dataItem : IsRule dataItem
  | number : IsRule number
  | stringLiteral : IsRule stringLiteral

/-- Each match at an offset ends further on, at a boundary of the source. -/
def Source.MovesOn {α : Type} (s : Source) (rule : List Char → Attempt α) : Prop :=
  ∀ pos value next, s.scan rule pos = .matched value next →
    pos < next ∧ next ≤ byteLength s.chars ∧ IsBoundary s.chars next

theorem IsRule.advances {α : Type} {rule : List Char → Attempt α} (h : IsRule rule)
    (cs : List Char) : (rule cs).Advances cs := by
  cases h with
  | label => exact label_advances cs
  | dataDirective => exact dataDirective_advances cs
  | instruction arity => exact instruction_advances arity cs
  | statement => exact statement_advances cs
  | expression => exact expression_advances cs
  | addressOf => exact addressOf_advances cs
  | flatExpression => exact flatExpression_advances cs
  | term => exact term_advances cs
  | dataItem => exact dataItem_advances cs
  | number => exact number_advances cs
  | stringLiteral => exact stringLiteral_advances cs

theorem IsRule.movesOn {α : Type} {rule : List Char → Attempt α} (h : IsRule rule) (s : Source) :
    s.MovesOn rule := by
  intro pos value next hmatch
  obtain ⟨rest, _, hnext, hlt⟩ := Source.leaves_of_scan h.advances hmatch
  exact ⟨hlt, hnext.isBoundary.le, hnext.isBoundary⟩

/-! ### Loops -/

/-- A loop comes to an answer if each turn that goes on makes a measure smaller. -/
theorem exists_ends {σ α : Type} {turn : σ → Turn σ α} (measure : σ → Nat)
    (hturn : ∀ state later, turn state = .again later → measure later < measure state)
    (state : σ) : ∃ n answer, n ≤ measure state + 1 ∧ Ends turn n state answer := by
  induction hm : measure state using Nat.strongRecOn generalizing state with
  | _ m ih =>
    subst hm
    cases h : turn state with
    | done answer => exact ⟨1, answer, Nat.le_add_left .., .done h⟩
    | again later =>
      have hlt := hturn state later h
      obtain ⟨n, answer, hn, hends⟩ := ih _ hlt later rfl
      exact ⟨n + 1, answer, by omega, .again h hends⟩

namespace Source

variable {s : Source} {rest : List Char}

theorem le_skipTriviaAt (s : Source) (pos : Nat) : pos ≤ s.skipTriviaAt pos := Nat.le_add_right ..

/-- The bytes ahead of a loop. -/
def ahead {ι : Type} (s : Source) (reached : Reached ι) : Nat := byteLength s.chars - reached.pos

/-! ### The loop over statements -/

/-- A turn that goes on has read a statement where it was. -/
theorem programTurn_eq_again {reached later : Reached Statement}
    (h : s.programTurn reached = .again later) : ∃ statement next,
      statementAt (s.restAt reached.pos) = .ok (statement, next) ∧
        s.Leaves (s.offsetOf next) next ∧ reached.pos < s.offsetOf next ∧
        later = ⟨reached.read ++ [statement], s.skipTriviaAt (s.offsetOf next)⟩ := by
  unfold programTurn at h
  split at h
  · contradiction
  · split at h
    · contradiction
    · next statement next hst =>
      cases h
      obtain ⟨_, hnext, hlt⟩ := leaves_of_properEnd (properEnd_of_statementAt hst)
      exact ⟨statement, next, hst, hnext, hlt, rfl⟩

theorem ahead_programTurn {reached later : Reached Statement}
    (h : s.programTurn reached = .again later) : s.ahead later < s.ahead reached := by
  obtain ⟨statement, next, _, hnext, hlt, rfl⟩ := programTurn_eq_again h
  have hle := hnext.isBoundary.le
  have hskip := s.le_skipTriviaAt (s.offsetOf next)
  simp only [ahead]
  omega

/-- What comes of a reading whose first statement is known. -/
theorem result_statements_of_ok {cs next : List Char} {statement : Statement}
    (h : statementAt cs = .ok (statement, next)) : (statements cs).result =
      (statements (skipTrivia next)).result.map fun p => ⟨statement :: p.statements⟩ := by
  rw [statements_of_ok h]
  cases hfault : (statements (skipTrivia next)).fault <;>
    simp [Reading.result, Reading.program, Except.map, hfault]

/-- The loop answers what was read in front and what the reader finds in the text that is left. -/
theorem eq_statements_of_ends {n : Nat} {reached : Reached Statement}
    {answer : Except Diagnostic Program} (h : Ends s.programTurn n reached answer)
    (hplace : s.Leaves reached.pos rest) : answer = diagnosed s.chars
      ((statements rest).result.map fun p => ⟨reached.read ++ p.statements⟩) := by
  -- Each turn moves a statement from the text to what was read, so neither is fixed.
  induction h generalizing rest with
  | @done reached answer h =>
    unfold programTurn at h
    split at h
    · next hend =>
      cases h
      rw [hplace.isAtEnd_iff.1 hend, statements_nil]
      simp [Reading.result, Reading.program, diagnosed, Except.map]
    · next hend =>
      split at h
      · next fault hst =>
        cases h
        rw [hplace.restAt_eq] at hst
        rw [statements_of_error (mt hplace.isAtEnd_iff.2 hend) hst]
        rfl
      · contradiction
  | @again n reached later answer h _ ih =>
    obtain ⟨statement, next, hst, hnext, _, rfl⟩ := programTurn_eq_again h
    rw [hplace.restAt_eq] at hst
    rw [ih hnext.skipTriviaAt, result_statements_of_ok hst]
    cases (statements (skipTrivia next)).result with
    | ok p => simp [Except.map]
    | error fault => rfl

/-- From the start of a source the loop answers what reading the source does. -/
theorem exists_ends_parse (s : Source) : ∃ n ≤ byteLength s.chars + 1,
    Ends s.programTurn n ⟨[], s.skipTriviaAt 0⟩ (Program.parse s.text) := by
  obtain ⟨n, answer, hn, hends⟩ :=
    exists_ends s.ahead (fun _ _ => ahead_programTurn) ⟨[], s.skipTriviaAt 0⟩
  have hanswer := eq_statements_of_ends hends s.leaves_start.skipTriviaAt
  have hid : (fun p : Program => Program.mk ([] ++ p.statements)) = id := rfl
  rw [hid, Except.map_id] at hanswer
  refine ⟨n, Nat.le_trans hn (Nat.succ_le_succ (Nat.sub_le ..)), ?_⟩
  rw [hanswer] at hends
  exact hends

/-! ### The loop over data items -/

theorem ahead_itemTurn {reached later : Reached DataItem}
    (h : s.itemTurn reached = .again later) : s.ahead later < s.ahead reached := by
  unfold itemTurn at h
  split at h
  · contradiction
  · contradiction
  · next item next hmatch =>
    split at h
    · cases h
      obtain ⟨hlt, hle, _⟩ := IsRule.dataItem.movesOn s _ _ _ hmatch
      have hskip := s.le_skipTriviaAt next
      have hcomma := s.le_skipTriviaAt (s.skipTriviaAt next + 1)
      simp only [ahead]
      omega
    · contradiction

/-- The fault of the reader for the same. -/
def missingFault (reached : Reached DataItem) (rest : List Char) : Fault :=
  if reached.read.isEmpty then .unexpected "a string or numeric data item" rest
  else missingAfterComma rest

theorem diagnose_missingFault {reached : Reached DataItem} (h : s.Leaves reached.pos rest) :
    (missingFault reached rest).diagnose s.chars = s.missingItem reached := by
  rw [missingFault, missingItem]
  split
  · exact h.diagnose_unexpected _
  · exact h.diagnose_eq _

/-- A comma is found past trivia, and what is behind it past trivia again. -/
theorem Leaves.comma {pos : Nat} {next later : List Char} (h : s.Leaves pos next)
    (hcomma : afterComma? next = some later) : s.startsWith (s.skipTriviaAt pos) ',' = true ∧
      s.skipTriviaAt (s.skipTriviaAt pos + 1) = s.offsetOf later := by
  obtain ⟨ds, hds, rfl⟩ := afterComma?_eq_some_iff.1 hcomma
  have hskip := h.skipTriviaAt
  rw [hds] at hskip
  have hone : byteLength [','] = 1 := by decide
  have hbehind : s.Leaves (s.skipTriviaAt pos + 1) ds := hone ▸ Leaves.append [','] hskip
  exact ⟨(hskip.startsWith_iff _).2 rfl, hbehind.skipTriviaAt.offsetOf_eq.symm⟩

theorem Leaves.no_comma {pos : Nat} {next : List Char} (h : s.Leaves pos next)
    (hcomma : afterComma? next = none) : s.startsWith (s.skipTriviaAt pos) ',' = false := by
  rw [← Bool.not_eq_true, h.skipTriviaAt.startsWith_iff]
  intro hhead
  obtain ⟨ds, hds⟩ := List.head?_eq_some_iff.1 hhead
  rw [afterComma?_eq_none_iff, hds, stops_cons] at hcomma
  contradiction

/-- A turn of the loop where a text is left, by what the reader finds there. -/
theorem itemTurn_eq {reached : Reached DataItem} (h : s.Leaves reached.pos rest) :
    s.itemTurn reached =
      match dataItem rest with
      | .noMatch => .done (.error (s.missingItem reached))
      | .failed fault => .done (.error (fault.diagnose s.chars))
      | .matched item next =>
        match afterComma? next with
        | none => .done (.ok (reached.read ++ [item], s.offsetOf next))
        | some later => .again ⟨reached.read ++ [item], s.offsetOf later⟩ := by
  rw [itemTurn, scan, h.restAt_eq]
  cases hitem : dataItem rest with
  | noMatch => rfl
  | failed fault => rfl
  | matched item next =>
    have hnext : s.Leaves (s.offsetOf next) next :=
      leaves_of_suffix ((dataItem_advances _ _ _ hitem).1.trans h.suffix)
    cases hcomma : afterComma? next with
    | none => simp only [hcomma, hnext.no_comma hcomma, Bool.false_eq_true, if_false]
    | some later =>
      obtain ⟨hstarts, hlater⟩ := hnext.comma hcomma
      simp only [hcomma, hstarts, hlater, if_true]

/-- The loop answers the items read in front and what the reader finds in the text that is left. -/
theorem eq_dataItems_of_ends {n : Nat} {reached : Reached DataItem}
    {answer : Except Diagnostic (List DataItem × Nat)} (h : Ends s.itemTurn n reached answer)
    (hplace : s.Leaves reached.pos rest) : answer = diagnosed s.chars
      ((dataItems (missingFault reached rest) rest).map fun p =>
        (reached.read ++ p.1, s.offsetOf p.2)) := by
  induction h generalizing rest with
  | @done reached answer h =>
    rw [itemTurn_eq hplace] at h
    rw [dataItems_eq]
    cases hitem : dataItem rest with
    | noMatch =>
      rw [hitem] at h
      cases h
      rw [← diagnose_missingFault hplace]
      rfl
    | failed fault =>
      rw [hitem] at h
      cases h
      rfl
    | matched item next =>
      rw [hitem] at h
      cases hcomma : afterComma? next with
      | none =>
        simp only [hcomma] at h ⊢
        cases h
        rfl
      | some behind =>
        simp only [hcomma] at h
        contradiction
  | @again n reached later answer h _ ih =>
    rw [itemTurn_eq hplace] at h
    rw [dataItems_eq]
    cases hitem : dataItem rest with
    | noMatch =>
      rw [hitem] at h
      contradiction
    | failed fault =>
      rw [hitem] at h
      contradiction
    | matched item next =>
      rw [hitem] at h
      cases hcomma : afterComma? next with
      | none =>
        simp only [hcomma] at h
        contradiction
      | some behind =>
        simp only [hcomma] at h ⊢
        cases h
        have hend := (properEnd_of_afterComma? hcomma).1.trans (dataItem_advances _ _ _ hitem).1
        have hne : (reached.read ++ [item]).isEmpty = false := by simp
        rw [ih (leaves_of_suffix (hend.trans hplace.suffix)), missingFault]
        simp only [hne, Bool.false_eq_true, if_false]
        cases dataItems (missingAfterComma behind) behind with
        | ok p => simp [Except.map]
        | error fault => rfl

/-- From a place where items are due the loop answers what the reader finds there. -/
theorem exists_ends_dataItems {pos : Nat} (h : s.Leaves pos rest) :
    ∃ n ≤ byteLength rest + 1, Ends s.itemTurn n ⟨[], pos⟩ (diagnosed s.chars
      ((dataItems (.unexpected "a string or numeric data item" rest) rest).map fun p =>
        (p.1, s.offsetOf p.2))) := by
  obtain ⟨n, answer, hn, hends⟩ :=
    exists_ends s.ahead (fun _ _ => ahead_itemTurn) ⟨[], pos⟩
  have hahead : s.ahead (⟨[], pos⟩ : Reached DataItem) = byteLength rest := by
    have := h.add_byteLength
    simp only [ahead]
    omega
  have hanswer := eq_dataItems_of_ends hends h
  simp only [List.nil_append] at hanswer
  rw [hanswer] at hends
  exact ⟨n, hahead ▸ hn, hends⟩

end Source

/-! ### Statements against bytes -/

theorem Grammar.Gap.byteLength_lt {cs rest : List Char} (h : Gap cs rest) :
    byteLength rest < byteLength cs :=
  byteLength_lt_of_properEnd ⟨h.1.suffix, h.length_lt⟩

/-- A statement takes two bytes at least: a label of one letter does. -/
theorem Grammar.Line.two_le {cs rest : List Char} {s : Statement} (h : Line cs s rest) :
    byteLength rest + 2 ≤ byteLength cs := by
  have hword : ∀ {w a : List Char}, w.length = 3 → rest <:+ a →
      byteLength rest + 2 ≤ byteLength (w ++ a) := by
    intro w a hw ha
    have hle := length_le_byteLength w
    have hrest := byteLength_le_of_infix ha.isInfix
    rw [byteLength_append]
    omega
  -- A keyword or a mnemonic has three letters, so only the label has to be looked at.
  cases h with
  | @label w _ hw =>
    have hcolon : (':').utf8Size = 1 := by decide
    have hle := length_le_byteLength w
    have hne := List.length_pos_iff.2 hw.1
    simp only [List.cons_append, byteLength_cons, byteLength_append, hcolon]
    omega
  | data hk hgap hs =>
    have hletters := (three_letters_of_dat hk).1
    exact hword (by simpa using hletters) (hs.suffix.trans hgap.1.suffix)
  | unary hm hgap _ =>
    exact hword (by simpa using (three_letters_of_mnemonic (Or.inr hm)).1)
      ((List.suffix_append ..).trans hgap.1.suffix)
  | binary hm hgap _ hbefore hafter _ =>
    have hoperand := (List.suffix_append ..).trans (hbefore.suffix_of_comma hafter)
    exact hword (by simpa using (three_letters_of_mnemonic (Or.inl hm)).1)
      ((hoperand.trans (List.suffix_append ..)).trans hgap.1.suffix)

/-- Two bytes to a statement, and one to each gap between two of them. -/
theorem Grammar.Lines.three_mul_length_le {cs : List Char} {ss : List Statement}
    (h : Lines cs ss) : 3 * ss.length ≤ byteLength cs + 1 := by
  induction h with
  | nil => exact Nat.zero_le _
  | last hline _ =>
    have := hline.two_le
    simp only [List.length_singleton]
    omega
  | cons hline hgap _ ih =>
    have := hline.two_le
    have := hgap.byteLength_lt
    simp only [List.length_cons] at ih ⊢
    omega

theorem three_mul_size_le {src : String} {p : Program} (h : Program.parse src = .ok p) :
    3 * p.size ≤ byteLength src.toList + 1 := by
  obtain ⟨rest, htrivia, hlines⟩ := programParse_eq_ok_iff.1 h
  have hle := hlines.three_mul_length_le
  have hrest := byteLength_le_of_infix htrivia.suffix.isInfix
  rw [Program.size]
  omega

/-- Labels of one letter, with a space between any two. -/
def shortLabels : Nat → List Char
  | 0 => [':', 'a']
  | n + 1 => ':' :: 'a' :: ' ' :: shortLabels n

theorem lines_shortLabels (n : Nat) :
    Lines (shortLabels n) (List.replicate (n + 1) (.label "a")) := by
  have hlabel (rest : List Char) : Line (':' :: 'a' :: rest) (.label "a") rest :=
    .label (w := ['a']) ⟨by simp, by simp⟩
  induction n with
  | zero => exact .last (hlabel []) .none
  | succ n ih => exact .cons (hlabel _) (gap_space _) ih

theorem byteLength_shortLabels (n : Nat) : byteLength (shortLabels n) + 1 = 3 * (n + 1) := by
  induction n with
  | zero => decide
  | succ n ih =>
    have hlabel : byteLength [':', 'a', ' '] = 3 := by decide
    have hcons : shortLabels (n + 1) = [':', 'a', ' '] ++ shortLabels n := rfl
    rw [hcons, byteLength_append, hlabel]
    omega

/-- The bound on statements is reached by any number of them. -/
theorem exists_three_mul_size_eq (n : Nat) : ∃ src p, Program.parse src = .ok p ∧
    p.size = n + 1 ∧ 3 * p.size = byteLength src.toList + 1 := by
  have hsrc : (String.ofList (shortLabels n)).toList = shortLabels n := String.toList_ofList
  refine ⟨.ofList (shortLabels n), ⟨List.replicate (n + 1) (.label "a")⟩, ?_, ?_, ?_⟩
  · rw [programParse_eq_ok_iff, hsrc]
    exact ⟨_, .none, lines_shortLabels n⟩
  · simp [Program.size]
  · rw [hsrc, byteLength_shortLabels]
    simp [Program.size]

/-- Each match of a rule ends further on, at a boundary of the source. So the bytes ahead get fewer
at each turn of the two loops, which come to an answer from every state, valid or not, and to the
answer of the reader from where it starts them. A program that is read has at most one statement to
three bytes, the last gap not counted, and may have as many. -/
theorem reader_progress (s : Source) :
    (∀ {α : Type} (rule : List Char → Attempt α), IsRule rule → s.MovesOn rule) ∧
    (∀ reached later, s.programTurn reached = .again later → s.ahead later < s.ahead reached) ∧
    (∀ reached later, s.itemTurn reached = .again later → s.ahead later < s.ahead reached) ∧
    (∀ reached, ∃ n answer, n ≤ s.ahead reached + 1 ∧ Ends s.programTurn n reached answer) ∧
    (∀ reached, ∃ n answer, n ≤ s.ahead reached + 1 ∧ Ends s.itemTurn n reached answer) ∧
    (∃ n ≤ byteLength s.chars + 1,
      Ends s.programTurn n ⟨[], s.skipTriviaAt 0⟩ (Program.parse s.text)) ∧
    (∀ pos rest, s.Leaves pos rest → ∃ n ≤ byteLength rest + 1,
      Ends s.itemTurn n ⟨[], pos⟩ (diagnosed s.chars
        ((dataItems (.unexpected "a string or numeric data item" rest) rest).map fun p =>
          (p.1, s.offsetOf p.2)))) ∧
    (∀ p, Program.parse s.text = .ok p → 3 * p.size ≤ byteLength s.chars + 1) ∧
    ∀ n, ∃ src p, Program.parse src = .ok p ∧ p.size = n + 1 ∧
      3 * p.size = byteLength src.toList + 1 :=
  ⟨fun _ hrule => hrule.movesOn s, fun _ _ => Source.ahead_programTurn,
    fun _ _ => Source.ahead_itemTurn, exists_ends s.ahead fun _ _ => Source.ahead_programTurn,
    exists_ends s.ahead fun _ _ => Source.ahead_itemTurn, s.exists_ends_parse,
    fun _ _ => Source.exists_ends_dataItems, fun _ => three_mul_size_le,
    exists_three_mul_size_eq⟩

end DcpuAsm
