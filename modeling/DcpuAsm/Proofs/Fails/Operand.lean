import DcpuAsm.Proofs.Reads.Operand
import DcpuAsm.Proofs.Fails.Lexeme

/-!
Where operands fail. A missing term, a third term and a bracket that is not closed are all found at
the first character that shows them. Main statement: `operand_fails`.
-/

namespace DcpuAsm

variable {cs next w r r' : List Char} {fault : Fault} {e left : Expression}

/-! ### Terms and sums -/

theorem identifier?_eq_none_of_number (h : number cs ≠ .noMatch) : identifier? cs = none := by
  rw [ne_eq, number_reads.noMatch_iff] at h
  obtain ⟨c, ds, rfl, hc⟩ := not_stops_iff.1 h
  exact identifier?_eq_none_of_isDigit hc ds

/-- Identifiers never fail. -/
theorem term_eq_failed_iff_number : term cs = .failed fault ↔ number cs = .failed fault := by
  rw [term_eq_failed_iff, and_iff_right_iff_imp]
  intro h
  exact identifier?_eq_none_of_number (by rw [h]; exact nofun)

theorem term_fails :
    Fails (fun cs f => term cs = .failed f) (fun w => ∃ e, term w = .matched e []) := by
  refine (number_fails.congr term_eq_failed_iff_number).mono ?_
  rintro w ⟨v, hv⟩
  have hid : identifier? w = none := identifier?_eq_none_of_number (by rw [hv]; exact nofun)
  exact ⟨.number v, term_eq_matched_iff.2 (Or.inr ⟨hid, v, hv, rfl⟩)⟩

theorem sumRight_of_term (h : term w = .matched e []) :
    ∃ v, sumRight left w = .ok (v, []) :=
  ⟨.sum left e, sumRight_eq_ok_iff.2 ⟨e, h, stops_nil, rfl⟩⟩

theorem sumRight_fails (left : Expression) : Fails (fun cs f => sumRight left cs = .error f)
    (fun w => ∃ v, sumRight left w = .ok (v, [])) := by
  have hmissing : Fails (fun cs f => term cs = .noMatch ∧
      f = .unexpected "an identifier or number after `+`" cs)
      (fun w => ∃ v, sumRight left w = .ok (v, [])) :=
    .here (onChar_unexpected (by decide)) term_reads.noMatch_congr
      (sumRight_of_term (w := ['0']) (e := .number 0) (by decide))
  have hthird : Fails (fun cs f => ¬ Stops (· == '+') cs ∧
      f = .unexpected "end of expression (sums take exactly two terms)" cs) (· = []) :=
    .here (onChar_unexpected (by decide)) (fun h => mt fun hs => hs.of_head?_eq h.symm) rfl
  have hsum (right : Expression) : Resumes (fun cs next => term cs = .matched right next) (· = [])
      fun w => ∃ v, sumRight left w = .ok (v, []) :=
    term_reads.resumes (by rintro _ rfl; exact stops_nil)
      (by rintro cs _ h rfl; exact sumRight_of_term h)
  have hbehind := Fails.some fun right => hthird.behind (term_reads.steps right) (hsum right)
  exact (hmissing.or ((term_fails.mono fun ⟨_, he⟩ => sumRight_of_term he).or hbehind)).congr
    sumRight_eq_error_iff

theorem flatExpression_fails : Fails (fun cs f => flatExpression cs = .failed f)
    (fun w => ∃ e, flatExpression w = .matched e []) := by
  have hsum (left : Expression) : Resumes (fun cs next => term cs = .matched left ('+' :: next))
      (fun w => ∃ v, sumRight left w = .ok (v, []))
      fun w => ∃ e, flatExpression w = .matched e [] :=
    term_reads.resumes_char fun h ⟨e, he⟩ =>
      ⟨e, flatExpression_eq_matched_iff.2 (Or.inr ⟨left, _, h, he⟩)⟩
  have hbehind := Fails.some fun left =>
    (sumRight_fails left).behind (term_reads.steps_char left '+') (hsum left)
  refine ((term_fails.mono ?_).or hbehind).congr flatExpression_eq_failed_iff
  rintro w ⟨e, he⟩
  exact ⟨e, flatExpression_eq_matched_iff.2 (Or.inl ⟨he, stops_nil⟩)⟩

/-! ### Brackets -/

theorem onChar_missingInBrackets : OnChar missingInBrackets where
  congr := by
    intro r r' hhead
    cases r with
    | nil => rw [List.head?_eq_none_iff.1 hhead]; rfl
    | cons c r =>
      obtain ⟨ds, rfl⟩ := List.head?_eq_some_iff.1 hhead
      unfold missingInBrackets
      split <;> simp_all [Fault.unterminated, Fault.unexpected, describe]
  onWord_eq cs := by
    unfold missingInBrackets
    split <;> rfl

theorem bracketed_of_flatExpression (h : flatExpression w = .matched e [']']) :
    ∃ v, bracketed w = .ok (v, []) :=
  ⟨.addressOf e, bracketed_eq_ok_iff.2 ⟨e, h, rfl⟩⟩

theorem bracketed_fails : Fails (fun cs f => bracketed cs = .error f)
    (fun w => ∃ v, bracketed w = .ok (v, [])) := by
  have hmissing : Fails (fun cs f => flatExpression cs = .noMatch ∧ f = missingInBrackets cs)
      (fun w => ∃ v, bracketed w = .ok (v, [])) :=
    .here onChar_missingInBrackets flatExpression_reads.noMatch_congr
      (bracketed_of_flatExpression (w := ['0', ']']) (e := .number 0) (by decide))
  have hopen : Fails (fun cs f => Stops (· == ']') cs ∧ f = .unterminated .addressOf "`]`" cs)
      (· = [']']) :=
    .here (onChar_unterminated _ _) (fun h hs => hs.of_head?_eq h) rfl
  have hclose (inner : Expression) :
      Resumes (fun cs next => flatExpression cs = .matched inner next) (· = [']'])
        fun w => ∃ v, bracketed w = .ok (v, []) :=
    flatExpression_reads.resumes (by rintro _ rfl; exact stops_cons.2 (by decide))
      (by rintro cs _ h rfl; exact bracketed_of_flatExpression h)
  have hbehind := Fails.some fun inner =>
    hopen.behind (flatExpression_reads.steps inner) (hclose inner)
  refine (hmissing.or ((flatExpression_fails.extend ?_).or hbehind)).congr bracketed_eq_error_iff
  rintro w ⟨e, he⟩
  have hclosed : flatExpression (w ++ [']']) = .matched e [']'] :=
    flatExpression_reads.exchange (r := []) (by rwa [List.append_nil])
      (.of_stops (stops_cons.2 (by decide)))
  exact ⟨[']'], bracketed_of_flatExpression hclosed⟩

theorem addressOf_fails : Fails (fun cs f => addressOf cs = .failed f)
    (fun w => ∃ e, addressOf w = .matched e []) := by
  have hopen : Resumes (fun cs next => cs = ['['] ++ next) (fun w => ∃ v, bracketed w = .ok (v, []))
      fun w => ∃ e, addressOf w = .matched e [] :=
    Resumes.text fun ⟨e, he⟩ => ⟨e, addressOf_eq_matched_iff.2 ⟨_, rfl, he⟩⟩
  exact (bracketed_fails.behind (.text _) hopen).congr addressOf_eq_failed_iff

/-! ### Operands -/

theorem expression_fails : Fails (fun cs f => expression cs = .failed f)
    (fun w => ∃ e, expression w = .matched e []) := by
  have haddress : Fails (fun cs f => addressOf cs = .failed f)
      fun w => ∃ e, expression w = .matched e [] :=
    addressOf_fails.mono fun ⟨e, he⟩ => ⟨e, Match.orElse_eq_matched.2 (Or.inl he)⟩
  have hflat : Fails (fun cs f => flatExpression cs = .failed f)
      fun w => ∃ e, expression w = .matched e [] := by
    refine flatExpression_fails.mono fun ⟨e, he⟩ => ?_
    obtain ⟨w, rfl, hw⟩ := flatExpression_reads.sound he
    rw [List.append_nil]
    exact ⟨e, expression_reads.matched_self (.flat hw)⟩
  exact (haddress.or (hflat.guard addressOf_reads.noMatch_congr)).congr Match.orElse_eq_failed

theorem operand_fails : Fails (fun cs f => operand cs = .error f)
    (fun w => ∃ e, operand w = .ok (e, [])) := by
  have hmissing : Fails (fun cs f => expression cs = .noMatch ∧ f = .unexpected "an operand" cs)
      fun w => ∃ e, operand w = .ok (e, []) :=
    .here (t := ['0']) (onChar_unexpected (by decide)) expression_reads.noMatch_congr
      ⟨.number 0, by decide⟩
  exact (hmissing.or (expression_fails.mono fun ⟨e, he⟩ => ⟨e, operand_eq_ok_iff.2 he⟩)).congr
    operand_eq_error_iff

end DcpuAsm
