import DcpuAsm.Proofs.Reads.Program
import DcpuAsm.Proofs.Fails.Statement

/-!
Where programs fail. From one statement to the next the loop steps over the text and looks no
further than the first character of the next one (`steps_lineStep`), so a fault of a program is one
of a statement behind any number of such steps. Main statements: `program_fails`,
`statementOnly_fails` and `operandOnly_fails`, one for each entry point.
-/

namespace DcpuAsm

variable {cs next x : List Char} {s : Statement} {fault : Fault} {accepts whole : List Char → Prop}

/-! ### From one statement to the next -/

theorem steps_lineStep (s : Statement) : Steps (LineStep s) where
  suffix := by
    rintro cs _ ⟨mid, hs, rfl⟩
    exact (skipTrivia_suffix mid).trans (properEnd_of_statementAt hs).1
  exchange := by
    intro u r r' hs hhead
    by_cases hr : r = []
    · rwa [eq_nil_of_head?_eq hhead hr, ← hr]
    · refine lineStep_exchange hs hr ((stops_of_lineStep hs).of_head?_eq hhead) ?_
      rintro items rfl
      exact (stops_comma_of_lineStep hs).of_head?_eq hhead

/-- Where nothing was left behind a statement, nothing need be added. -/
theorem resumes_lineStep (hnil : accepts [])
    (hstop : ∀ {x}, accepts x → Stops startsTrivia x ∧ Stops (· == ',') x)
    (hwhole : ∀ {cs x}, LineStep s cs x → accepts x → whole cs) :
    Resumes (LineStep s) accepts whole := by
  intro u p r t hs hacc
  -- With nothing left the text may end in a comment, behind which nothing can be written.
  by_cases hr : p ++ r = []
  · obtain ⟨rfl, rfl⟩ := List.append_eq_nil_iff.1 hr
    exact ⟨[], hwhole hs hnil⟩
  · exact ⟨t, hwhole (lineStep_exchange hs hr (hstop hacc).1 fun _ _ => (hstop hacc).2) hacc⟩

/-! ### One statement -/

theorem lineStep_of_statement (h : statement cs = .matched s []) : LineStep s cs [] :=
  ⟨[], statementAt_eq_ok_iff.2 ⟨h, stops_nil⟩, skipTrivia_of_stops stops_nil⟩

theorem stops_startsTrivia_of_not_mayEnd (h : ¬ MayEnd next) : Stops startsTrivia next := by
  rw [mayEnd_iff, not_or, not_not] at h
  exact h.2

/-- A statement, up to text that cannot follow it. -/
def BadEnd (s : Statement) (cs next : List Char) : Prop :=
  statement cs = .matched s next ∧ ¬ MayEnd next

theorem steps_badEnd (s : Statement) : Steps (BadEnd s) where
  suffix hs := (statement_advances _ _ _ hs.1).1
  exchange := by
    rintro u r r' ⟨hs, hend⟩ hhead
    have hstops := stops_startsTrivia_of_not_mayEnd hend
    have hend' : ¬ MayEnd r' := mt (fun h => h.of_head?_eq hhead.symm) hend
    refine ⟨statement_exchange hs (.of_head?_eq hhead) ?_, hend'⟩
    -- The list has looked past trivia for a comma, but there is none to look past.
    rintro items rfl
    have hcomma := afterComma?_eq_none_iff.1 (afterComma?_eq_none_of_statement hs)
    rw [skipTrivia_of_stops hstops] at hcomma
    exact afterComma?_eq_none (hstops.of_head?_eq hhead) (hcomma.of_head?_eq hhead)

theorem resumes_badEnd (s : Statement) :
    Resumes (BadEnd s) (· = []) fun w => ∃ s, LineStep s w [] := by
  rintro u p r t ⟨hs, _⟩ ht
  refine ⟨t, s, lineStep_of_statement ?_⟩
  rw [ht]
  exact statement_exchange hs (.of_stops stops_nil)
    fun _ _ => afterComma?_eq_none stops_nil stops_nil

theorem statementAt_fails : Fails (fun cs f => statementAt cs = .error f)
    fun w => ∃ s, LineStep s w [] := by
  have hlabel : ∃ s, LineStep s [':', 'a'] [] :=
    ⟨.label "a", lineStep_of_statement (by decide)⟩
  have hmissing : Fails (fun cs f => statement cs = .noMatch ∧
      f = .unexpected "a label, instruction or data directive" cs) fun w => ∃ s, LineStep s w [] :=
    .here (onChar_unexpected (by decide))
      (fun h hs => statement_eq_noMatch_iff.2 ((statement_eq_noMatch_iff.1 hs).of_head?_eq h)) hlabel
  have htrailing : Fails (fun cs f => True ∧ f = .trailing cs) (· = []) :=
    .here onChar_trailing (fun _ => id) rfl
  have hend := Fails.some fun s => htrailing.behind (steps_badEnd s) (resumes_badEnd s)
  refine (hmissing.or ((statement_fails.mono ?_).or hend)).congr ?_
  · rintro w ⟨s, hs⟩
    exact ⟨s, lineStep_of_statement hs⟩
  · intro cs f
    simp only [statementAt_eq_error_iff, BadEnd, and_assoc, true_and]

/-! ### The loop -/

/-- A fault of the loop is one of a statement that the loop came to. -/
theorem fault_statements_eq_some_iff : (statements cs).fault = some fault ↔
    ∃ next, Relation.ReflTransGen (fun cs next => ∃ s, LineStep s cs next) cs next ∧
      next ≠ [] ∧ statementAt next = .error fault := by
  constructor
  · induction cs using statements_induction with
    | nil =>
      intro h
      rw [statements_nil] at h
      contradiction
    | ok cs s next hs ih =>
      intro h
      rw [fault_statements_of_ok hs] at h
      obtain ⟨last, hsteps, hlast⟩ := ih h
      exact ⟨last, .head ⟨s, next, hs, rfl⟩ hsteps, hlast⟩
    | error cs fault' hne hs =>
      intro h
      rw [statements_of_error hne hs] at h
      cases h
      exact ⟨cs, .refl, hne, hs⟩
  · rintro ⟨next, hsteps, hne, hs⟩
    induction hsteps using Relation.ReflTransGen.head_induction_on with
    | refl => rw [statements_of_error hne hs]
    | head hstep _ ih =>
      obtain ⟨s, hstep⟩ := hstep
      rwa [fault_statements_of_lineStep hstep]

theorem stops_of_statements (h : (statements x).fault = none) :
    Stops startsTrivia x ∧ Stops (· == ',') x :=
  have hlines := lines_of_statements x h
  ⟨hlines.stops, hlines.stops_comma⟩

theorem statements_fails : Fails (fun cs f => (statements cs).fault = some f)
    fun w => (statements w).fault = none := by
  have hloop (s : Statement) : Resumes (LineStep s) (fun w => (statements w).fault = none)
      fun w => (statements w).fault = none :=
    resumes_lineStep fault_statements_nil stops_of_statements
      fun hs h => (fault_statements_of_lineStep hs).trans h
  have hone : Fails (fun cs f => statementAt cs = .error f) fun w => (statements w).fault = none :=
    statementAt_fails.mono fun ⟨_, hs⟩ =>
      (fault_statements_of_lineStep hs).trans fault_statements_nil
  have hmany : Resumes (fun cs next => ∃ s, LineStep s cs next)
      (fun w => (statements w).fault = none) fun w => (statements w).fault = none :=
    fun u p r t ⟨s, hs⟩ hacc => hloop s u p r t hs hacc
  exact ((hone.guard ne_nil_of_head?_eq).behindMany (.some steps_lineStep) hmany).congr
    fault_statements_eq_some_iff

/-! ### Entry points -/

theorem program_fails : Fails (fun cs f => (Reading.ofSource cs).result = .error f)
    fun w => ∃ p, (Reading.ofSource w).result = .ok p := by
  have hskip : Resumes (fun cs next => skipTrivia cs = next) (fun w => (statements w).fault = none)
      fun w => ∃ p, (Reading.ofSource w).result = .ok p := by
    refine resumes_skipTrivia (fun h => (stops_of_statements h).1) ?_
    rintro cs _ rfl h
    exact ⟨_, result_eq_ok_iff.2 ⟨h, rfl⟩⟩
  refine (statements_fails.behind steps_skipTrivia hskip).congr ?_
  intro cs f
  rw [result_eq_error_iff, exists_eq_left']
  rfl

/-- Text behind the end is a fault, and nothing else is missing. -/
theorem trailing_fails : Fails (fun cs f => cs ≠ [] ∧ f = .trailing cs) (· = []) :=
  .here onChar_trailing ne_nil_of_head?_eq rfl

theorem statementOnly_fails : Fails (fun cs f => statementOnly cs = .error f)
    fun w => ∃ s, statementOnly w = .ok s := by
  have hend (s : Statement) : Resumes (LineStep s) (· = []) fun w => ∃ s, LineStep s w [] := by
    refine resumes_lineStep rfl (by rintro _ rfl; exact ⟨stops_nil, stops_nil⟩) ?_
    rintro cs _ hs rfl
    exact ⟨s, hs⟩
  have hskip : Resumes (fun cs next => skipTrivia cs = next) (fun w => ∃ s, LineStep s w [])
      fun w => ∃ s, statementOnly w = .ok s := by
    refine resumes_skipTrivia ?_ ?_
    · rintro x ⟨s, mid, hs, _⟩
      exact (statement_sound (statementAt_eq_ok_iff.1 hs).1).stops
    · rintro cs _ rfl ⟨s, hs⟩
      exact ⟨s, statementOnly_eq_ok_iff_reads.2 hs⟩
  have hone := statementAt_fails.or
    (Fails.some fun s => trailing_fails.behind (steps_lineStep s) (hend s))
  refine (hone.behind steps_skipTrivia hskip).congr ?_
  intro cs f
  rw [statementOnly_eq_error_iff, exists_eq_left']
  refine or_congr_right ⟨?_, ?_⟩
  · rintro ⟨s, mid, hs, hne⟩
    exact ⟨s, _, ⟨mid, hs, rfl⟩, hne⟩
  · rintro ⟨s, _, ⟨mid, hs, rfl⟩, hne⟩
    exact ⟨s, mid, hs, hne⟩

theorem operandOnly_fails : Fails (fun cs f => operandOnly cs = .error f)
    fun w => ∃ e, operandOnly w = .ok e := by
  have hend (e : Expression) : Resumes (fun cs next => operand cs = .ok (e, next)) (· = [])
      fun w => ∃ e, operandOnly w = .ok e := by
    intro u p r t hs ht
    refine ⟨t, e, operandOnly_eq_ok_iff_reads.2 ?_⟩
    rw [ht]
    exact operand_exchange hs (.of_stops stops_nil)
  have hbehind := Fails.some fun e => trailing_fails.behind (steps_operand e) (hend e)
  exact ((operand_fails.mono fun ⟨e, he⟩ => ⟨e, operandOnly_eq_ok_iff_reads.2 he⟩).or hbehind).congr
    operandOnly_eq_error_iff

end DcpuAsm
