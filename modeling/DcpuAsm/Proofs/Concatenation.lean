import DcpuAsm.Proofs.Fails.Program
import DcpuAsm.Proofs.Position

/-!
Sources one below the other. A line feed between two sources closes a comment that may be open, and
no statement goes on behind it but a data directive whose next item stands behind a comma. Main
statement: `parse_append_newline`, apart from that case the statements of the first source and those
of the second are read, and what is wrong with the second is wrong in the same column further down.
-/

namespace DcpuAsm

variable {cs next b : List Char} {s : Statement} {ss : List Statement}

/-- A data directive at the end goes on with the comma that stands behind the first trivia of the
other text. -/
def CommaJoins (ss : List Statement) (b : List Char) : Prop :=
  (∃ items, ss.getLast? = some (.data items)) ∧ ∃ rest, Grammar.Trivia b (',' :: rest)

theorem CommaJoins.cons (h : CommaJoins ss b) (s : Statement) : CommaJoins (s :: ss) b := by
  obtain ⟨⟨items, hlast⟩, hcomma⟩ := h
  exact ⟨⟨items, by rw [List.getLast?_cons, hlast, Option.getD_some]⟩, hcomma⟩

theorem stops_comma_of_not_commaJoins {items : List DataItem}
    (h : ¬ CommaJoins [.data items] b) : Stops (· == ',') (skipTrivia b) := by
  refine (eq_cons_or_stops ',' (skipTrivia b)).resolve_left ?_
  rintro ⟨ds, hb⟩
  exact h ⟨⟨items, rfl⟩, ds, hb ▸ trivia_skipTrivia b⟩

/-! ### One statement -/

theorem skipTrivia_append_newline_of_stops (hne : next ≠ []) (h : Stops startsTrivia next)
    (b : List Char) : skipTrivia (next ++ '\n' :: b) = next ++ '\n' :: b := by
  have hskip := skipTrivia_of_stops h
  rw [skipTrivia_append next (by rwa [hskip]), hskip]

/-- A line feed and more text behind do not change what a statement is. -/
theorem lineStep_append_newline (h : LineStep s cs next)
    (hcomma : next = [] → ∀ items, s = .data items → Stops (· == ',') (skipTrivia b)) :
    LineStep s (cs ++ '\n' :: b) (skipTrivia (next ++ '\n' :: b)) := by
  have hnext := stops_of_lineStep h
  have ⟨mid, hs, hskip⟩ := h
  subst hskip
  obtain ⟨hst, hend⟩ := statementAt_eq_ok_iff.1 hs
  obtain ⟨w, rfl⟩ := (statement_advances _ _ _ hst).1
  rw [List.append_assoc, ← skipTrivia_append_newline_congr]
  refine ⟨mid ++ '\n' :: b, statementAt_eq_ok_iff.2 ⟨?_, hend.append_cons (by decide) b⟩, rfl⟩
  refine statement_exchange hst (.append_cons (by decide) mid b) ?_
  rintro items rfl
  rw [afterComma?_eq_none_iff, skipTrivia_append_newline_congr]
  -- The comma is looked for in the second text only if nothing is left of the first.
  by_cases hnil : skipTrivia mid = []
  · rw [hnil, List.nil_append, skipTrivia_newline]
    exact hcomma hnil items rfl
  · rw [skipTrivia_append_newline_of_stops hnil hnext]
    exact (stops_comma_of_lineStep h).append_cons (by decide) b

/-! ### All statements -/

/-- The loop goes through the first text and then through the second. -/
theorem statements_append_newline (cs : List Char) (hfault : (statements cs).fault = none)
    (hcomma : ¬ CommaJoins (statements cs).read b) :
    (statements (skipTrivia (cs ++ '\n' :: b))).read =
        (statements cs).read ++ (statements (skipTrivia b)).read ∧
      (statements (skipTrivia (cs ++ '\n' :: b))).fault = (statements (skipTrivia b)).fault := by
  induction cs using statements_induction with
  | nil =>
    rw [List.nil_append, skipTrivia_newline, statements_nil]
    exact ⟨rfl, rfl⟩
  | ok cs s mid hs ih =>
    have hstep : LineStep s cs (skipTrivia mid) := ⟨mid, hs, rfl⟩
    rw [fault_statements_of_lineStep hstep] at hfault
    rw [read_statements_of_lineStep hstep] at hcomma
    obtain ⟨hread, hsame⟩ := ih hfault (mt (fun h => h.cons s) hcomma)
    have hjoined : LineStep s (cs ++ '\n' :: b) (skipTrivia (skipTrivia mid ++ '\n' :: b)) := by
      refine lineStep_append_newline hstep ?_
      rintro hnil items rfl
      rw [hnil, statements_nil] at hcomma
      exact stops_comma_of_not_commaJoins hcomma
    -- A text that a statement starts is not empty and starts no trivia.
    have hcs : skipTrivia (cs ++ '\n' :: b) = cs ++ '\n' :: b := by
      refine skipTrivia_append_newline_of_stops ?_ (stops_of_statements ?_).1 b
      · rintro rfl
        exact absurd (properEnd_of_statementAt hs).2 (Nat.not_lt_zero _)
      · rw [fault_statements_of_lineStep hstep, hfault]
    rw [hcs, read_statements_of_lineStep hjoined, fault_statements_of_lineStep hjoined, hread,
      read_statements_of_lineStep hstep]
    exact ⟨rfl, hsame⟩
  | error cs fault hne hs =>
    rw [statements_of_error hne hs] at hfault
    contradiction

/-! ### Whole sources -/

theorem programParse_eq_ok_iff_reads {src : String} {p : Program} : Program.parse src = .ok p ↔
    (Reading.ofSource src.toList).fault = none ∧
      p.statements = (Reading.ofSource src.toList).read :=
  diagnosed_eq_ok_iff.trans result_eq_ok_iff

theorem ofSource_append_newline {a : List Char} (b : List Char) :
    Reading.ofSource (a ++ '\n' :: b) = statements (skipTrivia (skipTrivia a ++ '\n' :: b)) := by
  rw [Reading.ofSource, skipTrivia_append_newline_congr]

theorem toList_append_newline (a b : String) :
    (a ++ "\n" ++ b).toList = a.toList ++ '\n' :: b.toList := by
  simp

/-- Below a source that is read without an error, another one is read as it is alone, and its errors
are found as many bytes and lines further on as stand in front of it. -/
theorem parse_append_newline {a b : String} {p : Program} (ha : Program.parse a = .ok p)
    (hcomma : ¬ CommaJoins p.statements b.toList) :
    (∀ q, Program.parse b = .ok q →
      Program.parse (a ++ "\n" ++ b) = .ok ⟨p.statements ++ q.statements⟩) ∧
    ∀ d, Program.parse b = .error d → Program.parse (a ++ "\n" ++ b) = .error
      { cause := d.cause
        location :=
          { offset := d.location.offset + byteLength a.toList + 1
            line := d.location.line + a.toList.count '\n' + 1
            column := d.location.column } } := by
  obtain ⟨hfault, hread⟩ := programParse_eq_ok_iff_reads.1 ha
  rw [hread] at hcomma ⊢
  obtain ⟨hreads, hfaults⟩ := statements_append_newline _ hfault hcomma
  rw [← ofSource_append_newline] at hreads hfaults
  refine ⟨fun q hb => ?_, fun d hb => ?_⟩
  · obtain ⟨hfaultb, hreadb⟩ := programParse_eq_ok_iff_reads.1 hb
    rw [programParse_eq_ok_iff_reads, toList_append_newline, hreads, hfaults, hreadb]
    exact ⟨hfaultb, rfl⟩
  · obtain ⟨fault, hresult, rfl⟩ := diagnosed_eq_error_iff.1 hb
    obtain ⟨before, _, hbefore, _⟩ := program_fails.completable hresult
    have hjoined : (Reading.ofSource (a ++ "\n" ++ b).toList).result = .error fault := by
      rw [toList_append_newline, result_eq_error_iff, hfaults]
      exact result_eq_error_iff.1 hresult
    refine diagnosed_eq_error_iff.2 ⟨fault, hjoined, ?_⟩
    rw [toList_append_newline, hbefore, diagnose_append, ← List.cons_append, ← List.append_assoc,
      diagnose_append, Location.after_append_newline]

/-- The comment of the first line does not reach the second, and the error stays in its column. -/
theorem parse_append_newline_data_operand :
    Program.parse "dat 1 ; one" = .ok ⟨[.data [.number 1]]⟩ ∧
      ¬ CommaJoins [.data [.number 1]] "set a, ]".toList ∧
      Program.parse ("dat 1 ; one" ++ "\n" ++ "set a, ]") =
        .error ⟨.unexpected "an operand" "`]`", ⟨19, 2, 8⟩⟩ := by
  have ha : Program.parse "dat 1 ; one" = .ok ⟨[.data [.number 1]]⟩ :=
    programParse_eq_ok_iff_reads.2 (by decide +kernel)
  have hcomma : ¬ CommaJoins [.data [.number 1]] "set a, ]".toList := by
    rintro ⟨_, rest, hrest⟩
    have hhead := congrArg List.head? (hrest.skipTrivia_eq_rest (stops_cons.2 (by decide)))
    rw [List.head?_cons] at hhead
    exact absurd hhead (by decide)
  have hb : Program.parse "set a, ]" = .error ⟨.unexpected "an operand" "`]`", ⟨7, 1, 8⟩⟩ := by
    refine diagnosed_eq_error_iff.2 ⟨.unexpected "an operand" [']'], ?_, by decide⟩
    exact result_eq_error_iff.2 (by decide +kernel)
  exact ⟨ha, hcomma, (parse_append_newline ha hcomma).2 _ hb⟩

end DcpuAsm
