import DcpuAsm.Proofs.Reads.Statement
import DcpuAsm.Proofs.Fails.Data
import DcpuAsm.Proofs.Fails.Operand

/-!
Where statements fail. The word at the front is a fault of its own if it decides for nothing
(`UnknownWord`), and otherwise faults lie in what it demands behind it. Main statement:
`statement_fails`.
-/

namespace DcpuAsm

open Grammar (IsIdentifier Items)

variable {cs next w : List Char} {fault : Fault} {word : String}

/-! ### Labels -/

theorem label_fails : Fails (fun cs f => label cs = .failed f)
    fun w => ∃ s, statement w = .matched s [] := by
  have hname : Fails (fun cs f => word? cs = none ∧ f = .unexpected "a label name" cs) (· = ['a']) :=
    .here (onChar_unexpected (by decide))
      (fun h hs => word?_eq_none_iff.2 ((word?_eq_none_iff.1 hs).of_head?_eq h)) rfl
  have hcolon : Resumes (fun cs next => cs = [':'] ++ next) (· = ['a'])
      fun w => ∃ s, statement w = .matched s [] :=
    Resumes.text (by rintro _ rfl; exact ⟨.label "a", by decide⟩)
  exact (hname.behind (.text _) hcolon).congr label_eq_failed_iff

/-! ### Bodies -/

theorem dataBody_of_items {items : List DataItem} {start : List Char}
    (hsep : separated "whitespace after `dat`" cs = .ok start) (h : Items start items []) :
    ∃ s, dataBody cs = .ok (s, []) :=
  ⟨.data items, dataBody_eq_ok_iff.2 ⟨start, items, hsep,
    dataItems_complete h stops_nil (afterComma?_eq_none stops_nil stops_nil) _, rfl⟩⟩

theorem dataBody_fails : Fails (fun cs f => dataBody cs = .error f)
    fun w => ∃ s, dataBody w = .ok (s, []) := by
  have hzero : ∃ s, dataBody [' ', '0'] = .ok (s, []) := by
    obtain ⟨items, hitems⟩ := items_of_dataItem (w := ['0']) (i := .number 0) (by decide)
    exact dataBody_of_items (by decide) hitems
  have hgap : Resumes (fun cs next => separated "whitespace after `dat`" cs = .ok next)
      (fun w => ∃ items, Items w items []) fun w => ∃ s, dataBody w = .ok (s, []) :=
    resumes_separated (fun ⟨_, h⟩ => h.stops) fun hsep ⟨_, h⟩ => dataBody_of_items hsep h
  exact ((separated_fails (by decide) hzero).or
    ((dataItems_fails (onChar_unexpected (by decide))).behind (steps_separated _) hgap)).congr
      dataBody_eq_error_iff

theorem unaryOperands_fails (word : String) : Fails (fun cs f => unaryOperands word cs = .error f)
    fun w => ∃ s, unaryOperands word w = .ok (s, []) := by
  have hzero : ∃ s, unaryOperands word [' ', '0'] = .ok (s, []) :=
    ⟨.unary word (.number 0),
      unaryOperands_eq_ok_iff.2 ⟨['0'], .number 0, by decide, by decide, rfl⟩⟩
  have hgap : Resumes (fun cs next => separated "whitespace after mnemonic" cs = .ok next)
      (fun w => ∃ e, operand w = .ok (e, [])) fun w => ∃ s, unaryOperands word w = .ok (s, []) :=
    resumes_separated (fun ⟨_, h⟩ => stops_of_operand h) fun hsep ⟨e, h⟩ =>
      ⟨.unary word e, unaryOperands_eq_ok_iff.2 ⟨_, e, hsep, h, rfl⟩⟩
  exact ((separated_fails (by decide) hzero).or
    (operand_fails.behind (steps_separated _) hgap)).congr unaryOperands_eq_error_iff

theorem steps_operand (e : Expression) : Steps fun cs next => operand cs = .ok (e, next) where
  suffix hs := (properEnd_of_operand hs).1
  exchange hs hhead := operand_exchange hs (.of_head?_eq hhead)

/-- What has to follow the first of two operands. -/
def SecondOperand (w : List Char) : Prop :=
  ∃ rest e, afterComma? w = some rest ∧ operand rest = .ok (e, [])

theorem secondOperand_fails : Fails (fun cs f =>
    (afterComma? cs = none ∧ f = .unexpected "`,` between operands" (skipTrivia cs)) ∨
      ∃ rest, afterComma? cs = some rest ∧ operand rest = .error f) SecondOperand := by
  have hcomma : Fails (fun cs f => Stops (· == ',') cs ∧ f = .unexpected "`,` between operands" cs)
      (· = [',', '0']) :=
    .here (onChar_unexpected (by decide)) (fun h hs => hs.of_head?_eq h) rfl
  have htrivia : Resumes (fun cs next => skipTrivia cs = next) (· = [',', '0']) SecondOperand := by
    refine resumes_skipTrivia (by rintro _ rfl; exact stops_cons.2 (by decide)) ?_
    rintro cs _ hskip rfl
    exact ⟨['0'], .number 0, afterComma?_eq_some_iff.2 ⟨_, hskip, by decide⟩, by decide⟩
  have hsecond : Resumes (fun cs next => afterComma? cs = some next)
      (fun w => ∃ e, operand w = .ok (e, [])) SecondOperand :=
    resumes_afterComma? (fun ⟨_, h⟩ => stops_of_operand h) fun hc ⟨e, h⟩ => ⟨_, e, hc, h⟩
  refine ((hcomma.behind steps_skipTrivia htrivia).or
    (operand_fails.behind steps_afterComma? hsecond)).congr ?_
  intro cs f
  rw [afterComma?_eq_none_iff, exists_eq_left']

/-- What has to follow the gap behind the mnemonic of an instruction that takes two operands. -/
def BothOperands (w : List Char) : Prop :=
  ∃ d mid, operand w = .ok (d, mid) ∧ SecondOperand mid

theorem bothOperands_fails : Fails (fun cs f =>
    operand cs = .error f ∨ ∃ d mid, operand cs = .ok (d, mid) ∧
      ((afterComma? mid = none ∧ f = .unexpected "`,` between operands" (skipTrivia mid)) ∨
        ∃ rest, afterComma? mid = some rest ∧ operand rest = .error f)) BothOperands := by
  have hsecond (d : Expression) :
      Resumes (fun cs next => operand cs = .ok (d, next)) SecondOperand BothOperands := by
    intro u p r t hs hacc
    have ⟨_, _, hcomma, _⟩ := hacc
    exact ⟨t, d, _, operand_exchange hs (.of_stops (stops_continuesSum_of_afterComma? hcomma)), hacc⟩
  refine (operand_fails.extend ?_).or
    (Fails.some fun d => secondOperand_fails.behind (steps_operand d) (hsecond d))
  rintro w ⟨d, hd⟩
  have hd' : operand (w ++ [',', '0']) = .ok (d, [',', '0']) :=
    operand_exchange (r := []) (by rwa [List.append_nil]) (.of_stops (stops_cons.2 (by decide)))
  exact ⟨[',', '0'], d, _, hd', ['0'], .number 0, by decide, by decide⟩

theorem binaryOperands_of_bothOperands {start : List Char}
    (hsep : separated "whitespace after mnemonic" cs = .ok start) (h : BothOperands start) :
    ∃ s, binaryOperands word cs = .ok (s, []) :=
  let ⟨d, mid, hd, rest, e, hc, he⟩ := h
  ⟨.binary word d e, binaryOperands_eq_ok_iff.2 ⟨start, d, mid, rest, e, hsep, hd, hc, he, rfl⟩⟩

theorem binaryOperands_fails (word : String) :
    Fails (fun cs f => binaryOperands word cs = .error f)
      fun w => ∃ s, binaryOperands word w = .ok (s, []) := by
  have hgap : Resumes (fun cs next => separated "whitespace after mnemonic" cs = .ok next)
      BothOperands fun w => ∃ s, binaryOperands word w = .ok (s, []) :=
    resumes_separated (fun ⟨_, _, h, _⟩ => stops_of_operand h) binaryOperands_of_bothOperands
  have hboth : BothOperands ['0', ',', '0'] :=
    ⟨.number 0, [',', '0'], by decide, ['0'], .number 0, by decide, by decide⟩
  have hshort : ∃ s, binaryOperands word [' ', '0', ',', '0'] = .ok (s, []) :=
    binaryOperands_of_bothOperands (by decide) hboth
  exact ((separated_fails (by decide) hshort).or
    (bothOperands_fails.behind (steps_separated _) hgap)).congr binaryOperands_eq_error_iff

/-! ### Statements -/

theorem body?_fails (word : String) : Fails (fun cs f => body? word cs = some (.error f))
    fun w => ∃ s, body? word w = some (.ok (s, [])) := by
  by_cases hdata : isDataKeyword word = true
  · refine (dataBody_fails.mono ?_).congr (by simp [body?, hdata])
    rintro w ⟨s, hs⟩
    exact ⟨s, by simp [body?, hdata, hs]⟩
  · cases ha : arity? word with
    | none => exact .none (by simp [body?, hdata, ha])
    | some arity =>
      cases arity with
      | unary =>
        refine ((unaryOperands_fails word).mono ?_).congr (by simp [body?, hdata, ha, operands])
        rintro w ⟨s, hs⟩
        exact ⟨s, by simp [body?, hdata, ha, operands, hs]⟩
      | binary =>
        refine ((binaryOperands_fails word).mono ?_).congr (by simp [body?, hdata, ha, operands])
        rintro w ⟨s, hs⟩
        exact ⟨s, by simp [body?, hdata, ha, operands, hs]⟩

theorem steps_identifier? (word : String) :
    Steps fun cs next => identifier? cs = some (word, next) where
  suffix hs := (properEnd_of_identifier? hs).1
  exchange := by
    intro u r r' hs hhead
    obtain ⟨hu, hword, hstop⟩ := identifier?_eq_some_iff.1 hs
    obtain rfl : u = word.toList := List.append_cancel_right hu
    exact identifier?_eq_some_iff.2 ⟨rfl, hword, hstop.of_head?_eq hhead⟩

/-- Every body starts with a gap. -/
theorem not_stops_of_body? {s : Statement} (h : body? word cs = some (.ok (s, next))) :
    ¬ Stops startsTrivia cs := by
  rcases body?_eq_some_iff.1 h with ⟨_, hb⟩ | ⟨_, hb⟩ | ⟨_, hb⟩
  · obtain ⟨_, _, hsep, _⟩ := dataBody_eq_ok_iff.1 hb.symm
    exact (separated_eq_ok_iff.1 hsep).2
  · obtain ⟨_, _, hsep, _⟩ := unaryOperands_eq_ok_iff.1 hb.symm
    exact (separated_eq_ok_iff.1 hsep).2
  · obtain ⟨_, _, _, _, _, hsep, _⟩ := binaryOperands_eq_ok_iff.1 hb.symm
    exact (separated_eq_ok_iff.1 hsep).2

theorem resumes_identifier? (word : String) :
    Resumes (fun cs next => identifier? cs = some (word, next))
      (fun w => ∃ s, body? word w = some (.ok (s, [])))
      fun w => ∃ s, statement w = .matched s [] := by
  rintro u p r t hs ⟨s, hbody⟩
  obtain ⟨hu, hword, _⟩ := identifier?_eq_some_iff.1 hs
  obtain rfl : u = word.toList := List.append_cancel_right hu
  exact ⟨t, s, statement_of_body? hword (not_stops_of_body? hbody) hbody⟩

/-- What is wrong with a word that can start no statement. -/
def wordCause (w : List Char) : Cause :=
  if w.length = 3 ∧ w.all Char.isAlpha then .unknownMnemonic (.ofList w)
  else .unexpected "a three-letter mnemonic" (describe w)

theorem onWord_wordCause (w : List Char) : (wordCause w).onWord = true := by
  unfold wordCause
  split <;> rfl

theorem unknownWord_eq_wordCause {mid : List Char} (h : identifier? cs = some (word, mid)) :
    unknownWord cs = .failed ⟨wordCause word.toList, cs⟩ := by
  obtain ⟨hcs, hword, _⟩ := identifier?_eq_some_iff.1 h
  have hdescribe : describe cs = describe word.toList := by
    refine describe_congr ?_
    rw [hcs, head?_append_of_ne_nil (r := []) hword.1.1, List.append_nil]
  rw [unknownWord_eq h, wordCause, String.length_toList, String.ofList_toList]
  split
  · rfl
  · rw [Fault.unexpected, hdescribe]

/-- A word that can start no statement, and what is wrong with it. -/
def UnknownWord (w : List Char) (cause : Cause) : Prop :=
  (IsIdentifier w ∧ upperCase (.ofList w) ≠ "DAT" ∧ upperCase (.ofList w) ∉ binaryMnemonics ∧
    upperCase (.ofList w) ∉ unaryMnemonics) ∧ cause = wordCause w

/-- The first word is refused as a whole. -/
theorem unknownWord_eq_failed_iff : (∃ word mid, identifier? cs = some (word, mid) ∧
    body? word mid = none ∧ unknownWord cs = .failed fault) ↔
      ∃ cause, UnknownWord (cs.takeWhile Char.isAlphanum) cause ∧ fault = ⟨cause, cs⟩ := by
  constructor
  · rintro ⟨word, mid, hid, hbody, hfail⟩
    obtain ⟨hcs, hword, hstop⟩ := identifier?_eq_some_iff.1 hid
    have htake : cs.takeWhile Char.isAlphanum = word.toList := by
      rw [hcs, takeWhile_append_of_stops hword.1.2 hstop]
    rw [unknownWord_eq_wordCause hid] at hfail
    cases hfail
    rw [htake]
    refine ⟨_, ⟨⟨hword, ?_⟩, rfl⟩, rfl⟩
    rw [String.ofList_toList]
    exact body?_eq_none_iff.1 hbody
  · -- Any identifier at the front is the whole first word.
    rintro ⟨_, ⟨⟨hword, hnone⟩, rfl⟩, rfl⟩
    have hid : identifier? cs =
        some (.ofList (cs.takeWhile Char.isAlphanum), cs.dropWhile Char.isAlphanum) := by
      rw [identifier?_eq_some_iff, String.toList_ofList]
      exact ⟨List.takeWhile_append_dropWhile.symm, hword, stops_dropWhile _ cs⟩
    refine ⟨_, _, hid, body?_eq_none_iff.2 hnone, ?_⟩
    rw [unknownWord_eq_wordCause hid, String.toList_ofList]

/-- A fault of a statement lies where the grammar has to go on in another way. -/
theorem statement_fails : Fails (fun cs f => statement cs = .failed f)
    fun w => ∃ s, statement w = .matched s [] := by
  have hbody := Fails.some fun word =>
    (body?_fails word).behind (steps_identifier? word) (resumes_identifier? word)
  have hword : Fails (fun cs f => ∃ cause, UnknownWord (cs.takeWhile Char.isAlphanum) cause ∧
      f = ⟨cause, cs⟩) fun w => ∃ s, statement w = .matched s [] :=
    .word (t := [':', 'a']) (fun h => h.1.1.1.1 rfl) (fun h => h.2 ▸ onWord_wordCause _)
      ⟨.label "a", by decide⟩
  exact (label_fails.or (hbody.or (hword.congr unknownWord_eq_failed_iff))).congr
    statement_eq_failed_iff

end DcpuAsm
