import DcpuAsm.Proofs.Fails.Program
import DcpuAsm.Proofs.Lockstep
import DcpuAsm.Proofs.Position

/-!
Respellings that leave words alone. `KeepsWords f` says that `f` goes over runs of letters and digits
without a change and brings none up to another. The reader then finds the same words, identifiers and
numbers at the front of both texts (`KeepsWords.number`). Main statement: `answers_of_inStep`, of two
sources that are read in lockstep the answers are the same, or errors at places that match.
-/

namespace DcpuAsm

/-- A respelling that keeps runs of letters and digits as they are, and as long as they are. -/
structure KeepsWords (f : List Char → List Char) : Prop where
  append : ∀ {w r : List Char}, (∀ c ∈ w, c.isAlphanum = true) → f (w ++ r) = w ++ f r
  stops : ∀ {r : List Char}, Stops Char.isAlphanum r → Stops Char.isAlphanum (f r)

namespace KeepsWords

variable {f : List Char → List Char} {E : Fault → Fault → Prop} {cs : List Char}

theorem cons (hf : KeepsWords f) {c : Char} (hc : c.isAlphanum = true) (r : List Char) :
    f (c :: r) = c :: f r :=
  hf.append (w := [c]) (by simpa using hc)

/-- Behind a run of letters and digits the respelled text may stand in place of the text. -/
theorem seam (hf : KeepsWords f) (r : List Char) : Seam Char.isAlphanum r (f r) := by
  by_cases hr : Stops Char.isAlphanum r
  · exact .of_stops (hf.stops hr)
  · obtain ⟨c, r, rfl, hc⟩ := not_stops_iff.1 hr
    exact .of_head?_eq (by rw [hf.cons hc]; rfl)

/-- A class of letters and digits is met in front of both texts or of none. -/
theorem stops_iff (hf : KeepsWords f) {p : Char → Bool} (hp : ∀ c, p c = true → c.isAlphanum = true) :
    Stops p (f cs) ↔ Stops p cs := by
  by_cases hcs : Stops Char.isAlphanum cs
  · exact iff_of_true ((hf.stops hcs).mono hp) (hcs.mono hp)
  · obtain ⟨c, cs, rfl, hc⟩ := not_stops_iff.1 hcs
    rw [hf.cons hc, stops_cons, stops_cons]

theorem takeWhile_eq (hf : KeepsWords f) (cs : List Char) :
    (f cs).takeWhile Char.isAlphanum = cs.takeWhile Char.isAlphanum := by
  have hw : ∀ c ∈ cs.takeWhile Char.isAlphanum, c.isAlphanum = true :=
    List.all_eq_true.1 List.all_takeWhile
  conv_lhs => rw [← List.takeWhile_append_dropWhile (p := Char.isAlphanum) (l := cs)]
  rw [hf.append hw, takeWhile_append_of_stops hw (hf.stops (stops_dropWhile _ cs))]

theorem word? (hf : KeepsWords f) (cs : List Char) :
    Option.Rel (WithRest Eq fun r r' => r' = f r) (word? cs) (DcpuAsm.word? (f cs)) := by
  cases hword : DcpuAsm.word? cs with
  | none =>
    rw [word?_eq_none_iff.2 (hf.stops (word?_eq_none_iff.1 hword))]
    exact .none
  | some p =>
    obtain ⟨rfl, hw, hs⟩ := word?_eq_some_iff.1 hword
    rw [hf.append hw.2, word?_eq_some_iff.2 ⟨rfl, hw, hf.stops hs⟩]
    exact .some ⟨rfl, rfl⟩

theorem identifier? (hf : KeepsWords f) (cs : List Char) :
    Option.Rel (WithRest Eq fun r r' => r' = f r) (identifier? cs)
      (DcpuAsm.identifier? (f cs)) := by
  cases hword : DcpuAsm.identifier? cs with
  | none =>
    have hstops : Stops Char.isAlpha (f cs) :=
      (hf.stops_iff fun _ => isAlphanum_of_isAlpha).2 (identifier?_eq_none_iff.1 hword)
    rw [identifier?_eq_none_iff.2 hstops]
    exact .none
  | some p =>
    obtain ⟨rfl, hw, hs⟩ := identifier?_eq_some_iff.1 hword
    rw [hf.append hw.1.2, identifier?_eq_some_iff.2 ⟨rfl, hw, hf.stops hs⟩]
    exact .some ⟨rfl, rfl⟩

/-- A number is its first word, and what is wrong with it is in that word or just behind it. -/
theorem number (hf : KeepsWords f)
    (hunexpected : ∀ expected cs, E (.unexpected expected cs) (.unexpected expected (f cs)))
    (hspoils : ∀ {w cause} cs, SpoilsNumber w cause → E ⟨cause, cs⟩ ⟨cause, f cs⟩)
    (cs : List Char) : Match.InStep Eq (fun r r' => r' = f r) E (number cs) (number (f cs)) := by
  cases hn : DcpuAsm.number cs with
  | matched v next =>
    obtain ⟨w, rfl, hw⟩ := number_reads.sound hn
    rw [hf.append hw.isAlphanum, number_reads.exchange hn (hf.seam next)]
    exact .matched rfl rfl
  | noMatch =>
    rw [number_reads.noMatch_iff.2
      ((hf.stops_iff fun _ => isAlphanum_of_isDigit).2 (number_reads.noMatch_iff.1 hn))]
    exact .noMatch
  | failed fault =>
    rcases number_eq_failed_iff.1 hn with ⟨es, rfl, hs, rfl⟩ | ⟨cause, hcause, rfl⟩
    · rw [hf.cons (by decide), hf.cons (by decide),
        number_eq_failed_iff.2 (Or.inl ⟨_, rfl, hf.stops hs, rfl⟩)]
      exact .failed (hunexpected _ es)
    · rw [number_eq_failed_iff.2 (Or.inr ⟨cause, (hf.takeWhile_eq cs).symm ▸ hcause, rfl⟩)]
      exact .failed (hspoils cs hcause)

end KeepsWords

/-! ### Answers -/

/-- Two sources read in lockstep give the same value, or errors with related texts left. -/
theorem answers_of_inStep {α : Type} {rule : List Char → Committed α} {accepts : List Char → Prop}
    {E : Fault → Fault → Prop} {cs ds : List Char}
    (hfails : Fails (fun cs f => rule cs = .error f) accepts)
    (h : Committed.InStep Eq E (rule cs) (rule ds)) :
    (∀ a, diagnosed cs (rule cs) = .ok a ↔ diagnosed ds (rule ds) = .ok a) ∧
      ∀ d, diagnosed cs (rule cs) = .error d → ∃ f g before before', E f g ∧
        cs = before ++ f.rest ∧ ds = before' ++ g.rest ∧ d = ⟨f.cause, .after before⟩ ∧
        diagnosed ds (rule ds) = .error ⟨g.cause, .after before'⟩ := by
  generalize hm : rule cs = m, hn : rule ds = n at h
  cases h with
  | ok hv => exact ⟨fun _ => by rw [hv]; rfl, nofun⟩
  | @error f g he =>
    refine ⟨fun _ => ⟨nofun, nofun⟩, fun d hd => ?_⟩
    obtain ⟨before, _, hbefore, _⟩ := hfails.completable hm
    obtain ⟨before', _, hbefore', _⟩ := hfails.completable hn
    refine ⟨f, g, before, before', he, hbefore, hbefore', ?_, ?_⟩
    · rw [← diagnose_append, ← hbefore]
      exact (Except.error.inj hd).symm
    · rw [← diagnose_append, ← hbefore']
      rfl

end DcpuAsm
