import DcpuAsm.Proofs.Fails.Statement
import DcpuAsm.Proofs.Tells.Basic

/-!
What the faults of a statement say. Numerals and words are looked at as a whole, so a rule that may
report one has to start where no word runs across; every step that leads to such a rule does. The
faults of constructs that were left open name what stands in front of them. Main statement:
`statement_tells`, the faults of a statement hold where they lie.
-/

namespace DcpuAsm

variable {before cs next ds w : List Char} {fault : Fault} {cause : Cause} {word : String}

/-! ### Numbers and strings -/

theorem isHexDigit_of_isDigit {c : Char} (h : c.isDigit = true) : c.isHexDigit = true := by
  rw [Char.isHexDigit, h, Bool.true_or, Bool.true_or]

/-- A letter or digit that is no hexadecimal digit is a letter. -/
theorem exists_letter_of_all_eq_false (h : ds.all Char.isHexDigit = false)
    (halnum : ∀ c ∈ ds, c.isAlphanum = true) :
    ∃ c ∈ ds, c.isAlpha = true ∧ c.isHexDigit = false := by
  obtain ⟨c, hc, hbad⟩ := List.all_eq_false.1 h
  rw [Bool.not_eq_true] at hbad
  refine ⟨c, hc, ?_, hbad⟩
  rcases Bool.or_eq_true _ _ ▸ halnum c hc with halpha | hdigit
  · exact halpha
  · rw [isHexDigit_of_isDigit hdigit] at hbad
    contradiction

theorem SpoilsNumber.holdsAt (h : SpoilsNumber (cs.takeWhile Char.isAlphanum) cause)
    (hedge : WordEdge before cs) : cause.HoldsAt before cs := by
  generalize hw : cs.takeWhile Char.isAlphanum = w at h
  cases h with
  | @nonHexDigit digits hne hbad =>
    obtain ⟨ds, rfl⟩ := hexMarked_takeWhile_iff.1 ⟨digits, hw⟩
    obtain rfl : ds.takeWhile Char.isAlphanum = digits := by
      simpa [takeWhile_isAlphanum_mark] using hw
    rw [Cause.HoldsAt, String.toList_ofList]
    exact ⟨hedge, ds, rfl, rfl,
      exists_letter_of_all_eq_false hbad (List.all_eq_true.1 List.all_takeWhile)⟩
  | @hexadecimal digits hne hhex hbig =>
    obtain ⟨ds, rfl⟩ := hexMarked_takeWhile_iff.1 ⟨digits, hw⟩
    obtain rfl : ds.takeWhile Char.isAlphanum = digits := by
      simpa [takeWhile_isAlphanum_mark] using hw
    rw [Cause.HoldsAt, String.toList_ofList]
    exact ⟨hedge, .hexadecimal hne rfl (List.all_eq_true.1 hhex) hbig⟩
  | decimal hmark hne hbig =>
    subst hw
    rw [takeWhile_isDigit_word] at hne hbig ⊢
    rw [Cause.HoldsAt, String.toList_ofList]
    exact ⟨hedge, .decimal hne rfl hbig⟩

theorem number_tells : Tells WordEdge fun cs f => number cs = .failed f := by
  have hmark : Tells WordEdge fun cs f => ∃ ds, cs = ['0', 'x'] ++ ds ∧ Stops Char.isAlphanum ds ∧
      f = .unexpected "hexadecimal digits after `0x`" ds :=
    (tells_unexpected Anywhere _ _).behind ((Steps.text _).leads _)
  have hword : Tells WordEdge fun cs f =>
      ∃ cause, SpoilsNumber (cs.takeWhile Char.isAlphanum) cause ∧ f = ⟨cause, cs⟩ :=
    .some fun _ => .here (fun _ => rfl) fun hedge hspoils => hspoils.holdsAt hedge
  exact (hmark.or hword).congr number_eq_failed_iff

theorem atLineEnd_of_stops {rest : List Char} (hstops : Stops isStringChar rest)
    (hquote : Stops (· == '"') rest) : AtLineEnd rest := by
  cases rest with
  | nil => exact Or.inl rfl
  | cons c rest =>
    rw [stops_cons, beq_eq_false_iff_ne] at hquote
    have hc : c = '\n' := by simpa [isStringChar, hquote] using hstops
    exact Or.inr (by rw [hc]; rfl)

theorem stringLiteral_tells : Tells Anywhere fun cs f => stringLiteral cs = .failed f := by
  intro before cs fault _ hfault
  obtain ⟨body, rest, ⟨rfl, hbody⟩, ⟨hstops, hquote⟩, rfl⟩ := stringLiteral_eq_failed_iff.1 hfault
  exact ⟨'"' :: body, rfl, ⟨before, body, rfl, forall_isStringChar_iff.1 hbody⟩,
    atLineEnd_of_stops hstops hquote⟩

/-! ### Operands -/

theorem term_tells : Tells WordEdge fun cs f => term cs = .failed f :=
  number_tells.congr term_eq_failed_iff_number

theorem sumRight_tells (left : Expression) :
    Tells WordEdge fun cs f => sumRight left cs = .error f :=
  ((tells_unexpected _ _ _).or (term_tells.or (.some fun right =>
    (tells_unexpected Anywhere _ _).behind ((term_reads.steps right).leads _)))).congr
      sumRight_eq_error_iff

/-- A plus sign ends the word in front of it. -/
theorem leads_plus (left : Expression) :
    Leads Anywhere (fun cs next => term cs = .matched left ('+' :: next)) WordEdge := by
  intro before cs next _ hs
  obtain ⟨w, rfl, _⟩ := term_reads.sound hs
  refine ⟨w ++ ['+'], by rw [List.append_assoc]; rfl, ?_⟩
  rw [← List.append_assoc]
  exact wordEdge_append_cons (by decide) _

theorem flatExpression_tells : Tells WordEdge fun cs f => flatExpression cs = .failed f :=
  (term_tells.or (.some fun left => (sumRight_tells left).behind
    ((leads_plus left).mono (fun _ => trivial) id))).congr flatExpression_eq_failed_iff

theorem holdsAt_missingInBrackets (h : BehindBracket before cs) :
    (missingInBrackets cs).cause.HoldsAt before cs := by
  unfold missingInBrackets
  split
  · exact Or.inl ⟨h, Or.inl rfl⟩
  · exact Or.inl ⟨h, Or.inr rfl⟩
  · exact describes_describe cs

theorem leads_inner (inner : Expression) : Leads BehindBracket
    (fun cs next => flatExpression cs = .matched inner next) InBrackets := by
  rintro _ cs next ⟨front, rfl⟩ hs
  obtain ⟨w, rfl, hw⟩ := flatExpression_reads.sound hs
  exact ⟨w, rfl, front, w, inner, by rw [List.append_assoc]; rfl, hw⟩

theorem bracketed_tells : Tells BehindBracket fun cs f => bracketed cs = .error f := by
  have hmissing : Tells BehindBracket fun cs f =>
      flatExpression cs = .noMatch ∧ f = missingInBrackets cs :=
    .here rest_missingInBrackets fun h _ => holdsAt_missingInBrackets h
  have hopen : Tells InBrackets fun cs f =>
      Stops (· == ']') cs ∧ f = .unterminated .addressOf "`]`" cs :=
    .here (fun _ => rfl) fun h hs => Or.inr ⟨h, hs⟩
  exact (hmissing.or ((flatExpression_tells.mono BehindBracket.wordEdge).or
    (.some fun inner => hopen.behind (leads_inner inner)))).congr bracketed_eq_error_iff

theorem addressOf_tells : Tells Anywhere fun cs f => addressOf cs = .failed f := by
  have hopen : Leads Anywhere (fun cs next => cs = ['['] ++ next) BehindBracket := by
    rintro before _ next _ rfl
    exact ⟨['['], rfl, before, rfl⟩
  exact (bracketed_tells.behind hopen).congr addressOf_eq_failed_iff

theorem expression_tells : Tells WordEdge fun cs f => expression cs = .failed f :=
  ((addressOf_tells.mono fun _ => trivial).or (flatExpression_tells.guard _)).congr
    Match.orElse_eq_failed

theorem operand_tells : Tells WordEdge fun cs f => operand cs = .error f :=
  ((tells_unexpected _ _ _).or expression_tells).congr operand_eq_error_iff

/-! ### Data directives -/

theorem separated_tells (P : Site) (expected : String) :
    Tells P fun cs f => separated expected cs = .error f :=
  (tells_unexpected _ _ _).congr separated_eq_error_iff

theorem dataItem_tells : Tells WordEdge fun cs f => dataItem cs = .failed f :=
  ((stringLiteral_tells.mono fun _ => trivial).or (number_tells.guard _)).congr (by
    intro cs f
    rw [dataItem, Match.orElse_eq_failed, Match.map_eq_failed, Match.map_eq_noMatch,
      Match.map_eq_failed])

theorem leads_itemStep (P : Site) : Leads P ItemStep NextItem := by
  have hstep (item : DataItem) : Leads P
      (fun cs next => ∃ mid, dataItem cs = .matched item mid ∧ afterComma? mid = some next) NextItem :=
    ((dataItem_reads.steps item).leads P).comp leads_afterComma?
  exact Leads.some hstep

theorem laterItem_tells : Tells NextItem fun cs f =>
    dataItems (missingAfterComma cs) cs = .error f := by
  have hmissing : Tells NextItem fun cs f => dataItem cs = .noMatch ∧ f = missingAfterComma cs :=
    .here (fun _ => rfl) fun h hno => ⟨h.2, dataItem_reads.noMatch_iff.1 hno⟩
  exact ((hmissing.or (dataItem_tells.mono And.left)).behind (leads_itemStep NextItem).many).congr
    dataItems_eq_error_iff_many

theorem dataItems_tells (expected : String) : Tells WordEdge fun cs f =>
    dataItems (.unexpected expected cs) cs = .error f := by
  have hmissing : Tells WordEdge fun cs f => dataItem cs = .noMatch ∧ f = .unexpected expected cs :=
    tells_unexpected _ _ _
  refine (hmissing.or (dataItem_tells.or (laterItem_tells.behind (leads_itemStep _)))).congr ?_
  intro cs f
  rw [dataItems_eq_error_iff]
  refine or_congr_right (or_congr_right ⟨?_, ?_⟩)
  · rintro ⟨item, mid, rest, hitem, hcomma, h⟩
    exact ⟨rest, ⟨item, mid, hitem, hcomma⟩, h⟩
  · rintro ⟨rest, ⟨item, mid, hitem, hcomma⟩, h⟩
    exact ⟨item, mid, rest, hitem, hcomma, h⟩

theorem dataBody_tells : Tells WordEdge fun cs f => dataBody cs = .error f :=
  ((separated_tells _ _).or ((dataItems_tells _).behind (leads_separated _))).congr
    dataBody_eq_error_iff

/-! ### Instructions -/

theorem unaryOperands_tells (word : String) :
    Tells WordEdge fun cs f => unaryOperands word cs = .error f :=
  ((separated_tells _ _).or (operand_tells.behind (leads_separated _))).congr
    unaryOperands_eq_error_iff

theorem secondOperand_tells : Tells Anywhere fun cs f =>
    (afterComma? cs = none ∧ f = .unexpected "`,` between operands" (skipTrivia cs)) ∨
      ∃ rest, afterComma? cs = some rest ∧ operand rest = .error f := by
  have hcomma : Tells Anywhere fun cs f => ∃ next, skipTrivia cs = next ∧
      Stops (· == ',') next ∧ f = .unexpected "`,` between operands" next :=
    (tells_unexpected Anywhere _ _).behind (steps_skipTrivia.leads _)
  refine (hcomma.or ((operand_tells.mono And.left).behind leads_afterComma?)).congr ?_
  intro cs f
  rw [afterComma?_eq_none_iff, exists_eq_left']

theorem binaryOperands_tells (word : String) :
    Tells WordEdge fun cs f => binaryOperands word cs = .error f := by
  have hboth := operand_tells.or
    (.some fun d => secondOperand_tells.behind ((steps_operand d).leads WordEdge))
  exact ((separated_tells _ _).or (hboth.behind (leads_separated _))).congr
    binaryOperands_eq_error_iff

/-! ### Statements -/

theorem label_tells : Tells Anywhere fun cs f => label cs = .failed f :=
  ((tells_unexpected Anywhere _ _).behind ((Steps.text [':']).leads _)).congr label_eq_failed_iff

theorem body?_tells (word : String) :
    Tells WordEdge fun cs f => body? word cs = some (.error f) := by
  intro before cs fault hedge hfault
  rcases body?_eq_some_iff.1 hfault with ⟨_, hb⟩ | ⟨_, hb⟩ | ⟨_, hb⟩
  · exact dataBody_tells hedge hb.symm
  · exact unaryOperands_tells word hedge hb.symm
  · exact binaryOperands_tells word hedge hb.symm

theorem UnknownWord.holdsAt (h : UnknownWord (cs.takeWhile Char.isAlphanum) cause)
    (hedge : WordEdge before cs) : cause.HoldsAt before cs := by
  obtain ⟨⟨hword, hdata, hnone⟩, rfl⟩ := h
  rw [wordCause]
  split
  · next hletters =>
    refine ⟨hedge, ?_, ?_, hnone, hdata⟩
    · rw [String.toList_ofList]
    · rw [String.toList_ofList]
      exact ⟨hletters.1, List.all_eq_true.1 hletters.2⟩
  · have hhead : (cs.takeWhile Char.isAlphanum).head? = cs.head? := by
      have hsplit : (cs.takeWhile Char.isAlphanum ++ []).head? =
          (cs.takeWhile Char.isAlphanum ++ cs.dropWhile Char.isAlphanum).head? :=
        head?_append_of_ne_nil hword.1.1
      rwa [List.append_nil, List.takeWhile_append_dropWhile] at hsplit
    rw [describe_congr hhead]
    exact describes_describe cs

theorem unknownWord_tells : Tells WordEdge fun cs f => ∃ word mid, identifier? cs = some (word, mid) ∧
    body? word mid = none ∧ unknownWord cs = .failed f := by
  have hword : Tells WordEdge fun cs f =>
      ∃ cause, UnknownWord (cs.takeWhile Char.isAlphanum) cause ∧ f = ⟨cause, cs⟩ :=
    .some fun _ => .here (fun _ => rfl) fun hedge h => h.holdsAt hedge
  exact hword.congr unknownWord_eq_failed_iff

/-- The faults of a statement hold where they lie. -/
theorem statement_tells : Tells WordEdge fun cs f => statement cs = .failed f := by
  have hbody : Tells WordEdge fun cs f => ∃ word mid, identifier? cs = some (word, mid) ∧
      body? word mid = some (.error f) :=
    .some fun word => (body?_tells word).behind ((leads_identifier? word).mono (fun _ => trivial) id)
  exact ((label_tells.mono fun _ => trivial).or (hbody.or unknownWord_tells)).congr
    statement_eq_failed_iff

end DcpuAsm
