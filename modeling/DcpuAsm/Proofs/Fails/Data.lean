import DcpuAsm.Proofs.Reads.Data
import DcpuAsm.Proofs.Fails.Lexeme

/-!
Where gaps, commas and lists of data items fail. Trivia is a step over the text that looks no
further than what it leaves, and what it leaves can be completed behind a line feed if a comment
runs to the end (`resumes_skipTrivia`). Main statement: `dataItems_fails`, whatever is wrong with
a list lies where an item is due.
-/

namespace DcpuAsm

open Grammar (Items)

variable {cs next : List Char} {fault : Fault} {expected : String} {accepts whole : List Char → Prop}

/-! ### Steps over trivia -/

theorem steps_skipTrivia : Steps fun cs next => skipTrivia cs = next where
  suffix := by rintro cs _ rfl; exact skipTrivia_suffix cs
  exchange := by
    intro u r r' hs hhead
    by_cases hr : r = []
    · rwa [eq_nil_of_head?_eq hhead hr, ← hr]
    · have hstops : Stops startsTrivia r := hs ▸ stops_skipTrivia (u ++ r)
      rw [skipTrivia_exchange u hs hr, skipTrivia_of_stops (hstops.of_head?_eq hhead)]

theorem steps_separated (expected : String) :
    Steps fun cs next => separated expected cs = .ok next where
  suffix := suffix_of_separated
  exchange := by
    intro u r r' hs hhead
    by_cases hr : r = []
    · rwa [eq_nil_of_head?_eq hhead hr, ← hr]
    · have hstops : Stops startsTrivia r :=
        (separated_eq_ok_iff.1 hs).1 ▸ stops_skipTrivia (u ++ r)
      exact separated_exchange hs hr (hstops.of_head?_eq hhead)

theorem steps_afterComma? : Steps fun cs next => afterComma? cs = some next where
  suffix hs := (properEnd_of_afterComma? hs).1
  exchange := by
    intro u r r' hs hhead
    by_cases hr : r = []
    · rwa [eq_nil_of_head?_eq hhead hr, ← hr]
    · exact afterComma?_exchange hs hr ((stops_of_afterComma? hs).of_head?_eq hhead)

theorem resumes_skipTrivia (hstop : ∀ {x}, accepts x → Stops startsTrivia x)
    (hwhole : ∀ {cs x}, skipTrivia cs = x → accepts x → whole cs) :
    Resumes (fun cs next => skipTrivia cs = next) accepts whole := by
  intro u p r t hs hacc
  obtain ⟨t', ht'⟩ := exists_resume hs (hstop hacc)
  exact ⟨t', hwhole ht' hacc⟩

theorem resumes_separated (hstop : ∀ {x}, accepts x → Stops startsTrivia x)
    (hwhole : ∀ {cs x}, separated expected cs = .ok x → accepts x → whole cs) :
    Resumes (fun cs next => separated expected cs = .ok next) accepts whole := by
  intro u p r t hs hacc
  obtain ⟨t', ht'⟩ := exists_separated_resume hs (hstop hacc)
  exact ⟨t', hwhole ht' hacc⟩

theorem resumes_afterComma? (hstop : ∀ {x}, accepts x → Stops startsTrivia x)
    (hwhole : ∀ {cs x}, afterComma? cs = some x → accepts x → whole cs) :
    Resumes (fun cs next => afterComma? cs = some next) accepts whole := by
  intro u p r t hs hacc
  obtain ⟨t', ht'⟩ := exists_afterComma?_resume hs (hstop hacc)
  exact ⟨t', hwhole ht' hacc⟩

/-- A missing gap is found where it is due. -/
theorem separated_fails {t : List Char} (h : (expected == "a three-letter mnemonic") = false)
    (ht : accepts t) : Fails (fun cs f => separated expected cs = .error f) accepts :=
  (Fails.here (onChar_unexpected h) (fun hhead hs => hs.of_head?_eq hhead) ht).congr
    separated_eq_error_iff

/-! ### Items -/

theorem dataItem_fails : Fails (fun cs f => dataItem cs = .failed f)
    (fun w => ∃ i, dataItem w = .matched i []) := by
  have hstring : Fails (fun cs f => stringLiteral cs = .failed f)
      fun w => ∃ i, dataItem w = .matched i [] := by
    refine stringLiteral_fails.mono ?_
    rintro w ⟨v, hv⟩
    exact ⟨.string v, by simp [dataItem, hv, Match.orElse, Match.map]⟩
  have hnumber : Fails (fun cs f => number cs = .failed f)
      fun w => ∃ i, dataItem w = .matched i [] := by
    refine number_fails.mono ?_
    rintro _ ⟨v, hv⟩
    obtain ⟨w, rfl, hw⟩ := number_reads.sound hv
    rw [List.append_nil]
    exact ⟨.number v, dataItem_reads.matched_self (.number hw)⟩
  refine (hstring.or (hnumber.guard stringLiteral_reads.noMatch_congr)).congr ?_
  intro cs f
  rw [dataItem, Match.orElse_eq_failed, Match.map_eq_failed, Match.map_eq_noMatch,
    Match.map_eq_failed]

/-! ### Lists of items -/

/-- From one item of a list to the next. -/
def ItemStep (cs next : List Char) : Prop :=
  ∃ item mid, dataItem cs = .matched item mid ∧ afterComma? mid = some next

theorem steps_itemStep : Steps ItemStep :=
  .some fun item => (dataItem_reads.steps item).comp steps_afterComma?

/-- A list can be completed behind any of its commas. -/
theorem resumes_itemStep :
    Resumes ItemStep (fun w => ∃ items, Items w items []) fun w => ∃ items, Items w items [] := by
  rintro u p r t ⟨item, mid, hitem, hcomma⟩ ⟨items, hitems⟩
  obtain ⟨v, hv, his⟩ := dataItem_reads.sound hitem
  obtain ⟨a, rfl⟩ := (properEnd_of_afterComma? hcomma).1
  obtain rfl : u = v ++ a := List.append_cancel_right (hv.trans (List.append_assoc ..).symm)
  obtain ⟨t', ht'⟩ := exists_afterComma?_resume hcomma hitems.stops
  obtain ⟨ds, hbefore, hafter⟩ := trivia_of_afterComma? ht'
  refine ⟨t', item :: items, ?_⟩
  rw [List.append_assoc]
  exact .more his hbefore hafter hitems

/-- Behind a comma, a fault lies where the next item or a later one is due. -/
theorem dataItems_eq_error_iff_many : dataItems (missingAfterComma cs) cs = .error fault ↔
    ∃ next, Relation.ReflTransGen ItemStep cs next ∧
      ((dataItem next = .noMatch ∧ fault = missingAfterComma next) ∨
        dataItem next = .failed fault) := by
  refine ⟨fun h => ?_, ?_⟩
  · induction hn : cs.length using Nat.strongRecOn generalizing cs with
    | _ n ih =>
      rcases dataItems_eq_error_iff.1 h with hno | hfailed | ⟨item, mid, rest, hitem, hcomma, hlater⟩
      · exact ⟨cs, .refl, Or.inl hno⟩
      · exact ⟨cs, .refl, Or.inr hfailed⟩
      · have hmid := (dataItem_advances cs item mid hitem).2
        have hrest := (properEnd_of_afterComma? hcomma).2
        obtain ⟨next, hsteps, hnext⟩ := ih rest.length (by omega) hlater rfl
        exact ⟨next, .head ⟨item, mid, hitem, hcomma⟩ hsteps, hnext⟩
  · rintro ⟨next, hsteps, hnext⟩
    induction hsteps using Relation.ReflTransGen.head_induction_on with
    | refl =>
      rcases hnext with hno | hfailed
      · exact dataItems_eq_error_iff.2 (Or.inl hno)
      · exact dataItems_eq_error_iff.2 (Or.inr (Or.inl hfailed))
    | head hstep _ ih =>
      obtain ⟨item, mid, hitem, hcomma⟩ := hstep
      exact dataItems_eq_error_iff.2 (Or.inr (Or.inr ⟨item, mid, _, hitem, hcomma, ih⟩))

theorem items_of_dataItem {w : List Char} {i : DataItem} (h : dataItem w = .matched i []) :
    ∃ items, Items w items [] := by
  obtain ⟨w, rfl, hw⟩ := dataItem_reads.sound h
  exact ⟨[i], .one hw⟩

theorem missingItem_fails {missing : List Char → Fault} (hmissing : OnChar missing) :
    Fails (fun cs f => (dataItem cs = .noMatch ∧ f = missing cs) ∨ dataItem cs = .failed f)
      fun w => ∃ items, Items w items [] := by
  have hzero : ∃ items, Items ['0'] items [] := items_of_dataItem (i := .number 0) (by decide)
  exact (Fails.here hmissing dataItem_reads.noMatch_congr hzero).or
    (dataItem_fails.mono fun ⟨_, hi⟩ => items_of_dataItem hi)

/-- A fault of a list lies where an item is due. -/
theorem dataItems_fails {missing : List Char → Fault} (hmissing : OnChar missing) :
    Fails (fun cs f => dataItems (missing cs) cs = .error f) fun w => ∃ items, Items w items [] := by
  have hlater : Fails (fun cs f => dataItems (missingAfterComma cs) cs = .error f)
      fun w => ∃ items, Items w items [] :=
    ((missingItem_fails (onChar_unterminated _ _)).behindMany steps_itemStep resumes_itemStep).congr
      dataItems_eq_error_iff_many
  refine ((missingItem_fails hmissing).or (hlater.behind steps_itemStep resumes_itemStep)).congr ?_
  intro cs f
  rw [dataItems_eq_error_iff, or_assoc]
  refine or_congr_right (or_congr_right ⟨?_, ?_⟩)
  · rintro ⟨item, mid, rest, hitem, hcomma, h⟩
    exact ⟨rest, ⟨item, mid, hitem, hcomma⟩, h⟩
  · rintro ⟨rest, ⟨item, mid, hitem, hcomma⟩, h⟩
    exact ⟨item, mid, rest, hitem, hcomma, h⟩

end DcpuAsm
