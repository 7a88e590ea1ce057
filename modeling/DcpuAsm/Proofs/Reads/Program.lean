import DcpuAsm.Parse
import DcpuAsm.Proofs.Reads.Statement

/-!
What the statement loop and the three entry points find. Each has a lemma that says when it succeeds
and when it fails (`statementAt_eq_ok_iff`, `statements_of_ok` and so on). Main statements: a text
is accepted as a program, a statement or an operand just where the grammar derives it
(`result_ofSource_eq_ok_iff`, `statementOnly_eq_ok_iff`, `operandOnly_eq_ok_iff`).
-/

namespace DcpuAsm

open Grammar (Trivia Gap Line Lines LinesAt Derives IsOperand)

variable {cs next mid rest src u r x : List Char} {s : Statement} {fault : Fault} {e : Expression}

/-! ### Ends of statements -/

/-- A statement may end in front of the text. -/
def MayEnd (next : List Char) : Prop := Stops (fun c => !startsTrivia c) next

theorem mayEnd_iff : MayEnd next ↔ next = [] ∨ ¬ Stops startsTrivia next := by
  cases next with
  | nil => simp [MayEnd]
  | cons c next => simp [MayEnd]

theorem boundary_eq_ok_iff : boundary next = .ok () ↔ MayEnd next := by
  cases next with
  | nil => simp [boundary, MayEnd, pure, Except.pure]
  | cons c next =>
    rw [boundary, MayEnd, stops_cons]
    split
    · next h => simp [h, pure, Except.pure]
    · next h => simp [h, throw, throwThe, MonadExceptOf.throw]

theorem boundary_eq_error_iff :
    boundary next = .error fault ↔ ¬ MayEnd next ∧ fault = .trailing next := by
  cases next with
  | nil => simp [boundary, MayEnd, pure, Except.pure]
  | cons c next =>
    rw [boundary, MayEnd, stops_cons]
    split
    · next h => simp [h, pure, Except.pure]
    · next h => simp [h, throw, throwThe, MonadExceptOf.throw, eq_comm]

theorem endOfText_eq_ok_iff : endOfText next = .ok () ↔ next = [] := by
  cases next with
  | nil => simp [endOfText, pure, Except.pure]
  | cons c next => simp [endOfText, throw, throwThe, MonadExceptOf.throw]

theorem endOfText_eq_error_iff :
    endOfText next = .error fault ↔ next ≠ [] ∧ fault = .trailing next := by
  cases next with
  | nil => simp [endOfText, pure, Except.pure]
  | cons c next => simp [endOfText, throw, throwThe, MonadExceptOf.throw, eq_comm]

/-- Behind the end of a statement nothing goes on with it but a comma. -/
theorem MayEnd.follows (h : MayEnd next) (hcomma : afterComma? next = none) : Follows s next := by
  refine ⟨?_, fun _ _ => hcomma⟩
  refine Stops.mono (q := fun c => !startsTrivia c) h fun c hc => ?_
  rw [continuesSum, Bool.or_eq_true, beq_iff_eq] at hc
  rcases hc with hc | rfl
  · rw [startsTrivia_eq_false_of_isAlphanum hc]; rfl
  · decide

/-! ### One statement -/

theorem statementAt_eq_ok_iff :
    statementAt cs = .ok (s, next) ↔ statement cs = .matched s next ∧ MayEnd next := by
  rw [statementAt, bind_eq_ok]
  constructor
  · rintro ⟨⟨s', mid⟩, hs, h⟩
    obtain ⟨⟨⟩, hb, h⟩ := bind_eq_ok.1 h
    cases h
    exact ⟨Match.required_eq_ok.1 hs, boundary_eq_ok_iff.1 hb⟩
  · rintro ⟨hs, hb⟩
    exact ⟨(s, next), Match.required_eq_ok.2 hs,
      bind_eq_ok.2 ⟨(), boundary_eq_ok_iff.2 hb, rfl⟩⟩

theorem statementAt_eq_error_iff : statementAt cs = .error fault ↔
    (statement cs = .noMatch ∧
        fault = .unexpected "a label, instruction or data directive" cs) ∨
      statement cs = .failed fault ∨
      ∃ s next, statement cs = .matched s next ∧ ¬ MayEnd next ∧ fault = .trailing next := by
  rw [statementAt, bind_eq_error, Match.required_eq_error, or_assoc, eq_comm (a := fault)]
  refine or_congr_right (or_congr_right ?_)
  constructor
  · rintro ⟨⟨s, next⟩, hs, h⟩
    rcases bind_eq_error.1 h with hb | ⟨_, _, h⟩
    · exact ⟨s, next, Match.required_eq_ok.1 hs, boundary_eq_error_iff.1 hb⟩
    · contradiction
  · rintro ⟨s, next, hs, hb⟩
    exact ⟨(s, next), Match.required_eq_ok.2 hs,
      bind_eq_error.2 (Or.inl (boundary_eq_error_iff.2 hb))⟩

/-! ### The loop -/

theorem statements_nil : statements [] = ⟨[], none⟩ := by rw [statements, if_pos rfl]

theorem fault_statements_nil : (statements []).fault = none := by rw [statements_nil]

theorem statements_of_ok (h : statementAt cs = .ok (s, next)) :
    statements cs = ⟨⟨s, cs⟩ :: (statements (skipTrivia next)).accepted,
      (statements (skipTrivia next)).fault⟩ := by
  have hne : cs ≠ [] := by
    rintro rfl
    exact absurd (properEnd_of_statementAt h).2 (Nat.not_lt_zero _)
  rw [statements, if_neg hne]
  split
  · next h' => rw [h] at h'; contradiction
  · next h' => rw [h] at h'; cases h'; rfl

theorem statements_of_error (hne : cs ≠ []) (h : statementAt cs = .error fault) :
    statements cs = ⟨[], some fault⟩ := by
  rw [statements, if_neg hne]
  split
  · next h' => rw [h] at h'; cases h'; rfl
  · next h' => rw [h] at h'; contradiction

/-- The loop is at the end, or reads a statement and goes on behind its trivia, or stops at a fault.
-/
theorem statements_induction {motive : List Char → Prop} (nil : motive [])
    (ok : ∀ cs s next, statementAt cs = .ok (s, next) → motive (skipTrivia next) → motive cs)
    (error : ∀ cs fault, cs ≠ [] → statementAt cs = .error fault → motive cs) (cs : List Char) :
    motive cs := by
  induction hn : cs.length using Nat.strongRecOn generalizing cs with
  | _ n ih =>
    by_cases hne : cs = []
    · exact hne ▸ nil
    · cases h : statementAt cs with
      | error fault => exact error cs fault hne h
      | ok p =>
        obtain ⟨s, next⟩ := p
        have hlt := ((properEnd_of_statementAt h).of_isSuffix (skipTrivia_suffix next)).2
        exact ok cs s next h (ih _ (hn ▸ hlt) _ rfl)

/-- The statements that were read. -/
def Reading.read (r : Reading) : List Statement := r.accepted.map Placed.statement

theorem read_statements_of_ok (h : statementAt cs = .ok (s, next)) :
    (statements cs).read = s :: (statements (skipTrivia next)).read := by
  rw [statements_of_ok h, Reading.read, Reading.read, List.map_cons]

theorem fault_statements_of_ok (h : statementAt cs = .ok (s, next)) :
    (statements cs).fault = (statements (skipTrivia next)).fault := by rw [statements_of_ok h]

/-! ### From one statement to the next -/

/-- A statement and the trivia behind it. -/
def LineStep (s : Statement) (cs next : List Char) : Prop :=
  ∃ mid, statementAt cs = .ok (s, mid) ∧ skipTrivia mid = next

theorem stops_of_lineStep (h : LineStep s cs next) : Stops startsTrivia next := by
  obtain ⟨mid, _, rfl⟩ := h
  exact stops_skipTrivia mid

theorem stops_comma_of_lineStep {items : List DataItem} (h : LineStep (.data items) cs next) :
    Stops (· == ',') next := by
  obtain ⟨mid, hs, rfl⟩ := h
  exact afterComma?_eq_none_iff.1 (afterComma?_eq_none_of_statement (statementAt_eq_ok_iff.1 hs).1)

/-- Behind a statement and its trivia any text may stand that goes on with neither. -/
theorem lineStep_exchange (h : LineStep s (u ++ r) r) (hr : r ≠ []) (hx : Stops startsTrivia x)
    (hcomma : ∀ items, s = .data items → Stops (· == ',') x) : LineStep s (u ++ x) x := by
  obtain ⟨mid, hs, hskip⟩ := h
  obtain ⟨hst, hend⟩ := statementAt_eq_ok_iff.1 hs
  obtain ⟨q, rfl⟩ : r <:+ mid := hskip ▸ skipTrivia_suffix mid
  obtain ⟨v, rfl⟩ := List.suffix_append_self_iff.1 (statement_advances _ _ _ hst).1
  -- The statement has to be followed by trivia, which is `q`.
  have hq : q ≠ [] := by
    rintro rfl
    rcases mayEnd_iff.1 hend with hnil | hstart
    · exact hr hnil
    · exact hstart (hskip ▸ stops_skipTrivia _)
  have hhead : (q ++ x).head? = (q ++ r).head? := head?_append_of_ne_nil hq
  have hskip' : skipTrivia (q ++ x) = x := by
    rw [skipTrivia_exchange q hskip hr, skipTrivia_of_stops hx]
  rw [List.append_assoc] at hst ⊢
  refine ⟨q ++ x, statementAt_eq_ok_iff.2 ⟨?_, hend.of_head?_eq hhead⟩, hskip'⟩
  refine statement_exchange hst (.of_head?_eq hhead) fun items hdata => ?_
  rw [afterComma?_eq_none_iff, hskip']
  exact hcomma items hdata

theorem read_statements_of_lineStep (h : LineStep s cs next) :
    (statements cs).read = s :: (statements next).read := by
  obtain ⟨mid, hs, rfl⟩ := h
  exact read_statements_of_ok hs

theorem fault_statements_of_lineStep (h : LineStep s cs next) :
    (statements cs).fault = (statements next).fault := by
  obtain ⟨mid, hs, rfl⟩ := h
  exact fault_statements_of_ok hs

theorem accepted_statements_of_lineStep (h : LineStep s cs next) :
    (statements cs).accepted = ⟨s, cs⟩ :: (statements next).accepted := by
  obtain ⟨mid, hs, rfl⟩ := h
  rw [statements_of_ok hs]

/-! ### Programs of the grammar -/

/-- A statement starts with a character that starts neither trivia nor a comma. -/
theorem Grammar.Line.starts (h : Line cs s next) :
    ∃ c ds, cs = c :: ds ∧ startsStatement c = true := by
  have hletters : ∀ {w a : List Char}, w.length = 3 ∧ (∀ c ∈ w, c.isAlpha = true) →
      ∃ c ds, w ++ a = c :: ds ∧ startsStatement c = true := by
    intro w a hw
    obtain ⟨c, ds, rfl⟩ := List.exists_cons_of_length_eq_add_one hw.1
    refine ⟨c, ds ++ a, rfl, ?_⟩
    rw [startsStatement, hw.2 c List.mem_cons_self, Bool.or_true]
  cases h with
  | @label w _ _ => exact ⟨':', w ++ next, rfl, by decide⟩
  | data hk _ _ => exact hletters (by simpa using three_letters_of_dat hk)
  | unary hm _ _ => exact hletters (by simpa using three_letters_of_mnemonic (Or.inr hm))
  | binary hm _ _ _ _ _ => exact hletters (by simpa using three_letters_of_mnemonic (Or.inl hm))

theorem startsTrivia_of_startsStatement {c : Char} (h : startsStatement c = true) :
    startsTrivia c = false := by
  rw [startsStatement, Bool.or_eq_true, beq_iff_eq] at h
  rcases h with rfl | h
  · decide
  · exact startsTrivia_eq_false_of_isAlphanum (isAlphanum_of_isAlpha h)

theorem ne_comma_of_startsStatement {c : Char} (h : startsStatement c = true) :
    (c == ',') = false := by
  rw [beq_eq_false_iff_ne]
  rintro rfl
  exact absurd h (by decide)

theorem Grammar.Line.stops (h : Line cs s next) : Stops startsTrivia cs := by
  obtain ⟨c, ds, rfl, hc⟩ := h.starts
  exact stops_cons.2 (startsTrivia_of_startsStatement hc)

theorem Grammar.Lines.stops {ss : List Statement} (h : Lines cs ss) : Stops startsTrivia cs := by
  cases h with
  | nil => exact stops_nil
  | last hl _ => exact hl.stops
  | cons hl _ _ => exact hl.stops

/-- No text of the grammar starts with a comma. -/
theorem Grammar.Lines.stops_comma {ss : List Statement} (h : Lines cs ss) :
    Stops (· == ',') cs := by
  obtain rfl | ⟨s, next, hline⟩ : cs = [] ∨ ∃ s next, Line cs s next := by
    cases h with
    | nil => exact Or.inl rfl
    | last hl _ => exact Or.inr ⟨_, _, hl⟩
    | cons hl _ _ => exact Or.inr ⟨_, _, hl⟩
  · exact stops_nil
  · obtain ⟨c, ds, rfl, hc⟩ := hline.starts
    exact stops_cons.2 (ne_comma_of_startsStatement hc)

/-- Trivia and then a statement leave no comma for a list. -/
theorem afterComma?_eq_none_of_line (hskip : skipTrivia mid = cs) (h : Line cs s next) :
    afterComma? mid = none := by
  obtain ⟨c, ds, rfl, hc⟩ := h.starts
  rw [afterComma?_eq_none_iff, hskip]
  exact stops_cons.2 (ne_comma_of_startsStatement hc)

theorem afterComma?_eq_none_of_skipTrivia (hskip : skipTrivia mid = []) : afterComma? mid = none := by
  rw [afterComma?_eq_none_iff, hskip]
  exact stops_nil

theorem mayEnd_of_skipTrivia (hskip : skipTrivia mid = []) : MayEnd mid := by
  rw [mayEnd_iff, ← skipTrivia_eq_self_iff, hskip]
  exact (Decidable.em (mid = [])).imp_right fun h h' => h h'.symm

/-- Between the end of a statement and the next one there is a gap. -/
theorem MayEnd.gap {t : Statement} (h : MayEnd mid) (htrivia : Trivia mid cs)
    (hline : Line cs t next) : Gap mid cs := by
  refine ⟨htrivia, ?_⟩
  rintro rfl
  obtain ⟨c, ds, rfl, hc⟩ := hline.starts
  rw [MayEnd, stops_cons, startsTrivia_of_startsStatement hc] at h
  contradiction

theorem Grammar.Line.statementAt_eq (h : Line cs s next) (hend : MayEnd next)
    (hcomma : afterComma? next = none) : statementAt cs = .ok (s, next) :=
  statementAt_eq_ok_iff.2 ⟨statement_complete h (hend.follows hcomma), hend⟩

/-- Texts that are read to the end consist of statements, which start where the loop was. -/
theorem linesAt_of_statements (cs : List Char) : (statements cs).fault = none →
    LinesAt cs (statements cs).read ((statements cs).accepted.map Placed.start) := by
  induction cs using statements_induction with
  | nil =>
    intro _
    rw [statements_nil]
    exact .nil
  | ok cs s next h ih =>
    intro hfault
    rw [fault_statements_of_ok h] at hfault
    have hlines := ih hfault
    obtain ⟨hs, hend⟩ := statementAt_eq_ok_iff.1 h
    have hline := statement_sound hs
    rw [read_statements_of_ok h, statements_of_ok h, List.map_cons]
    have htrivia := trivia_skipTrivia next
    generalize (statements (skipTrivia next)).read = ss at hlines
    generalize (statements (skipTrivia next)).accepted.map Placed.start = starts at hlines
    generalize skipTrivia next = rest at hlines htrivia
    cases hlines with
    | nil => exact .last hline htrivia
    | last hl htail => exact .cons hline (hend.gap htrivia hl) (.last hl htail)
    | cons hl hgap hs => exact .cons hline (hend.gap htrivia hl) (.cons hl hgap hs)
  | error cs fault hne h =>
    intro hfault
    rw [statements_of_error hne h] at hfault
    contradiction

theorem lines_of_statements (cs : List Char) (h : (statements cs).fault = none) :
    Lines cs (statements cs).read :=
  (linesAt_of_statements cs h).lines

/-- Statements of the grammar are read to the end. -/
theorem statements_of_lines {ss : List Statement} (h : Lines cs ss) :
    (statements cs).read = ss ∧ (statements cs).fault = none := by
  induction h with
  | nil => rw [statements_nil]; exact ⟨rfl, rfl⟩
  | last hline htail =>
    have hskip := htail.skipTrivia_eq_rest stops_nil
    have h := hline.statementAt_eq (mayEnd_of_skipTrivia hskip)
      (afterComma?_eq_none_of_skipTrivia hskip)
    rw [read_statements_of_ok h, fault_statements_of_ok h, hskip, statements_nil]
    exact ⟨rfl, rfl⟩
  | @cons cs mid rest s t ss hline hgap hlines ih =>
    obtain ⟨s', next, hline'⟩ : ∃ s' next, Line rest s' next := by
      cases hlines with
      | last hl _ => exact ⟨_, _, hl⟩
      | cons hl _ _ => exact ⟨_, _, hl⟩
    have hskip := hgap.1.skipTrivia_eq_rest hline'.stops
    have h := hline.statementAt_eq (mayEnd_iff.2 (Or.inr (hgap.not_stops hline'.stops)))
      (afterComma?_eq_none_of_line hskip hline')
    rw [read_statements_of_ok h, fault_statements_of_ok h, hskip, ih.1]
    exact ⟨rfl, ih.2⟩

/-! ### Entry points -/

theorem result_eq_ok_iff {r : Reading} {p : Program} :
    r.result = .ok p ↔ r.fault = none ∧ p.statements = r.read := by
  rw [Reading.result]
  split
  · next h =>
    rw [Except.ok.injEq, h, Reading.program]
    refine ⟨fun h => ⟨rfl, by rw [← h]; rfl⟩, fun h => ?_⟩
    cases p
    rw [Program.mk.injEq]
    exact h.2.symm
  · next h => simp [h]

theorem result_eq_error_iff {r : Reading} : r.result = .error fault ↔ r.fault = some fault := by
  rw [Reading.result]
  split
  · next h => simp [h]
  · next h => simp [h]

/-- A program is accepted just where the grammar derives it. -/
theorem result_ofSource_eq_ok_iff {p : Program} :
    (Reading.ofSource src).result = .ok p ↔ Derives src p.statements := by
  rw [Reading.ofSource, result_eq_ok_iff]
  constructor
  · rintro ⟨hfault, hp⟩
    exact ⟨_, trivia_skipTrivia src, hp ▸ lines_of_statements _ hfault⟩
  · rintro ⟨rest, htrivia, hlines⟩
    obtain ⟨hread, hfault⟩ := statements_of_lines hlines
    rw [htrivia.skipTrivia_eq_rest hlines.stops]
    exact ⟨hfault, hread.symm⟩

theorem statementOnly_eq_ok_iff_reads : statementOnly src = .ok s ↔
    ∃ next, statementAt (skipTrivia src) = .ok (s, next) ∧ skipTrivia next = [] := by
  rw [statementOnly, bind_eq_ok]
  constructor
  · rintro ⟨⟨s', next⟩, hs, h⟩
    obtain ⟨⟨⟩, hend, h⟩ := bind_eq_ok.1 h
    cases h
    exact ⟨next, hs, endOfText_eq_ok_iff.1 hend⟩
  · rintro ⟨next, hs, hend⟩
    exact ⟨(s, next), hs, bind_eq_ok.2 ⟨(), endOfText_eq_ok_iff.2 hend, rfl⟩⟩

theorem statementOnly_eq_error_iff : statementOnly src = .error fault ↔
    statementAt (skipTrivia src) = .error fault ∨
      ∃ s next, statementAt (skipTrivia src) = .ok (s, next) ∧ skipTrivia next ≠ [] ∧
        fault = .trailing (skipTrivia next) := by
  rw [statementOnly, bind_eq_error]
  refine or_congr_right ?_
  constructor
  · rintro ⟨⟨s, next⟩, hs, h⟩
    rcases bind_eq_error.1 h with hend | ⟨_, _, h⟩
    · exact ⟨s, next, hs, endOfText_eq_error_iff.1 hend⟩
    · contradiction
  · rintro ⟨s, next, hs, hend⟩
    exact ⟨(s, next), hs, bind_eq_error.2 (Or.inl (endOfText_eq_error_iff.2 hend))⟩

/-- A statement is accepted just where the grammar derives it alone. -/
theorem statementOnly_eq_ok_iff : statementOnly src = .ok s ↔ Derives src [s] := by
  rw [statementOnly_eq_ok_iff_reads]
  constructor
  · rintro ⟨next, hs, hend⟩
    have hline := statement_sound (statementAt_eq_ok_iff.1 hs).1
    exact ⟨_, trivia_skipTrivia src, .last hline (hend ▸ trivia_skipTrivia next)⟩
  · rintro ⟨rest, htrivia, hlines⟩
    cases hlines with
    | @last _ mid _ hline htail =>
      have hskip := htail.skipTrivia_eq_rest stops_nil
      rw [htrivia.skipTrivia_eq_rest hline.stops]
      exact ⟨mid, hline.statementAt_eq (mayEnd_of_skipTrivia hskip)
        (afterComma?_eq_none_of_skipTrivia hskip), hskip⟩

theorem operandOnly_eq_ok_iff_reads : operandOnly src = .ok e ↔ operand src = .ok (e, []) := by
  rw [operandOnly, bind_eq_ok]
  constructor
  · rintro ⟨⟨e', next⟩, he, h⟩
    obtain ⟨⟨⟩, hend, h⟩ := bind_eq_ok.1 h
    cases h
    obtain rfl := endOfText_eq_ok_iff.1 hend
    exact he
  · intro he
    exact ⟨(e, []), he, rfl⟩

theorem operandOnly_eq_error_iff : operandOnly src = .error fault ↔
    operand src = .error fault ∨
      ∃ e next, operand src = .ok (e, next) ∧ next ≠ [] ∧ fault = .trailing next := by
  rw [operandOnly, bind_eq_error]
  refine or_congr_right ?_
  constructor
  · rintro ⟨⟨e, next⟩, he, h⟩
    rcases bind_eq_error.1 h with hend | ⟨_, _, h⟩
    · exact ⟨e, next, he, endOfText_eq_error_iff.1 hend⟩
    · contradiction
  · rintro ⟨e, next, he, hend⟩
    exact ⟨(e, next), he, bind_eq_error.2 (Or.inl (endOfText_eq_error_iff.2 hend))⟩

/-- An operand is accepted just where the grammar has it. -/
theorem operandOnly_eq_ok_iff : operandOnly src = .ok e ↔ IsOperand src e := by
  rw [operandOnly_eq_ok_iff_reads, operand_eq_ok_iff]
  refine ⟨fun h => ?_, ?_⟩
  · obtain ⟨w, rfl, hw⟩ := expression_reads.sound h
    rwa [List.append_nil]
  · exact expression_reads.matched_self

theorem diagnosed_eq_ok_iff {α : Type} {r : Committed α} {a : α} :
    diagnosed src r = .ok a ↔ r = .ok a := by
  cases r <;> simp [diagnosed]

theorem diagnosed_eq_error_iff {α : Type} {r : Committed α} {d : Diagnostic} :
    diagnosed src r = .error d ↔ ∃ fault, r = .error fault ∧ d = fault.diagnose src := by
  cases r <;> simp [diagnosed, eq_comm]

end DcpuAsm
