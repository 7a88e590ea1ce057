import DcpuAsm.Proofs.Fails.Program
import DcpuAsm.Proofs.Position
import DcpuAsm.Proofs.Tells.Statement

/-!
Errors are faithful to the source. A diagnostic lies at a place of the source, its location is the
one that a person counts there (`Location.Counts`), and what its cause says of that place is so
(`Cause.HoldsAt`): the character that was found, the numeral or the word as a whole, the construct
that was left open. The reader never comes to a statement inside a word, which is what the loop
keeps from one statement to the next (`leads_lineStep`). Main statement: `parse_errors_faithful`, all
diagnostics of the three entry points are faithful.
-/

namespace DcpuAsm

variable {α : Type} {before cs next : List Char}

/-- The offset, line and column that are counted off a text which stands in front of a place. Only a
line feed ends a line. -/
structure Location.Counts (l : Location) (before : List Char) : Prop where
  offset_eq : l.offset = byteLength before
  line_eq : l.line = 1 + before.count '\n'
  column_eq : ∃ lines line, before = lines ++ line ∧ (lines = [] ∨ lines.getLast? = some '\n') ∧
    '\n' ∉ line ∧ l.column = 1 + line.length

/-- A diagnostic lies where its location says, and what it says of that place is so. -/
def Diagnostic.FaithfulTo (d : Diagnostic) (src : String) : Prop :=
  ∃ before rest, src.toList = before ++ rest ∧ d.location.Counts before ∧ d.cause.HoldsAt before rest

/-- All errors are faithful to the source they are about. -/
def ReportsFaithfully (parse : String → Except Diagnostic α) : Prop :=
  ∀ src d, parse src = .error d → d.FaithfulTo src

/-! ### Locations -/

theorem Location.counts_after (before : List Char) : (Location.after before).Counts before where
  offset_eq := rfl
  line_eq := Nat.add_comm ..
  column_eq := by
    refine ⟨(before.reverse.dropWhile (· ≠ '\n')).reverse, (before.reverse.takeWhile (· ≠ '\n')).reverse,
      ?_, ?_, ?_, ?_⟩
    · rw [← List.reverse_append, List.takeWhile_append_dropWhile, List.reverse_reverse]
    · rw [List.reverse_eq_nil_iff, List.getLast?_reverse]
      cases hlines : before.reverse.dropWhile (· ≠ '\n') with
      | nil => exact Or.inl rfl
      | cons c lines =>
        have hstop := stops_dropWhile (· ≠ '\n') before.reverse
        rw [hlines, stops_cons] at hstop
        obtain rfl : c = '\n' := by simpa using hstop
        exact Or.inr rfl
    · rw [List.mem_reverse]
      intro hmem
      have hall := List.all_eq_true.1 (List.all_takeWhile (l := before.reverse)) _ hmem
      exact absurd hall (by decide)
    · rw [List.length_reverse]
      exact Nat.add_comm ..

/-- Where the faults of a rule hold, so do the errors. -/
theorem Tells.reportsFaithfully {rule : List Char → Committed α}
    (h : Tells WordEdge fun cs f => rule cs = .error f) :
    ReportsFaithfully fun src => diagnosed src.toList (rule src.toList) := by
  intro src d hd
  obtain ⟨fault, hfault, rfl⟩ := diagnosed_eq_error_iff.1 hd
  obtain ⟨before, hsrc, hholds⟩ := h (wordEdge_start _) hfault
  refine ⟨before, fault.rest, hsrc, ?_, hholds⟩
  rw [hsrc, diagnose_append]
  exact Location.counts_after before

/-! ### From one statement to the next -/

/-- Where a statement may end no word goes on. -/
theorem MayEnd.stops (h : MayEnd next) : Stops Char.isAlphanum next := by
  refine Stops.mono (q := fun c => !startsTrivia c) h fun c hc => ?_
  rw [startsTrivia_eq_false_of_isAlphanum hc]
  rfl

theorem leads_lineStep (s : Statement) : Leads WordEdge (LineStep s) WordEdge := by
  rintro before cs next - ⟨mid, hs, hskip⟩
  obtain ⟨u, rfl⟩ := (properEnd_of_statementAt hs).1
  have hedge : WordEdge (before ++ u) mid := Or.inr (statementAt_eq_ok_iff.1 hs).2.stops
  obtain ⟨v, rfl, hnext⟩ := leads_skipTrivia hedge hskip
  exact ⟨u ++ v, by rw [List.append_assoc], by rwa [← List.append_assoc]⟩

theorem statementAt_tells : Tells WordEdge fun cs f => statementAt cs = .error f := by
  have hend : Tells WordEdge fun cs f => ∃ s next, BadEnd s cs next ∧ True ∧ f = .trailing next :=
    .some fun s => (tells_trailing Anywhere _).behind ((steps_badEnd s).leads _)
  have hmissing : Tells WordEdge fun cs f => statement cs = .noMatch ∧
      f = .unexpected "a label, instruction or data directive" cs := tells_unexpected _ _ _
  refine (hmissing.or (statement_tells.or hend)).congr ?_
  intro cs f
  simp only [statementAt_eq_error_iff, BadEnd, and_assoc, true_and]

theorem statements_tells : Tells WordEdge fun cs f => (statements cs).fault = some f :=
  ((statementAt_tells.guard (· ≠ [])).behind (Leads.many (.some leads_lineStep))).congr
    fault_statements_eq_some_iff

/-! ### Entry points -/

theorem program_tells : Tells WordEdge fun cs f => (Reading.ofSource cs).result = .error f := by
  refine (statements_tells.behind leads_skipTrivia).congr ?_
  intro cs f
  rw [result_eq_error_iff, exists_eq_left']
  rfl

theorem statementOnly_tells : Tells WordEdge fun cs f => statementOnly cs = .error f := by
  have hend : Tells WordEdge fun cs f => ∃ s next, LineStep s cs next ∧ next ≠ [] ∧
      f = .trailing next :=
    .some fun s => (tells_trailing WordEdge _).behind (leads_lineStep s)
  refine ((statementAt_tells.or hend).behind leads_skipTrivia).congr ?_
  intro cs f
  rw [statementOnly_eq_error_iff, exists_eq_left']
  refine or_congr_right ⟨?_, ?_⟩
  · rintro ⟨s, mid, hs, hne⟩
    exact ⟨s, _, ⟨mid, hs, rfl⟩, hne⟩
  · rintro ⟨s, _, ⟨mid, hs, rfl⟩, hne⟩
    exact ⟨s, mid, hs, hne⟩

theorem operandOnly_tells : Tells WordEdge fun cs f => operandOnly cs = .error f := by
  have hend : Tells WordEdge fun cs f => ∃ e next, operand cs = .ok (e, next) ∧ next ≠ [] ∧
      f = .trailing next :=
    .some fun e => (tells_trailing Anywhere _).behind ((steps_operand e).leads _)
  exact (operand_tells.or hend).congr operandOnly_eq_error_iff

/-- Each error lies on a character boundary of the source, on the line and in the column that are
counted there, and what it says about the text at that place is so. -/
theorem parse_errors_faithful :
    ReportsFaithfully Program.parse ∧ ReportsFaithfully Statement.parse ∧
      ReportsFaithfully Expression.parse :=
  ⟨program_tells.reportsFaithfully, statementOnly_tells.reportsFaithfully,
    operandOnly_tells.reportsFaithfully⟩

end DcpuAsm
